import LoopChat.TransitionRuns
import LoopChat.ChildFeed
import LoopChat.ChatScreen

/-!
# Chat screens over a shared database

Any number of clients, communities and `ChatScreentVC` instances run over one Realtime
Database and one Firestore collection. A popped screen takes no more taps, but its
closures are still called. A label in which a force operation of the app would fail is
not enabled: that process is gone, the other clients go on.
-/
namespace LoopChat.ChatSystem
open FirebaseValues ChildFeed

structure Screen where
  client : ℕ
  vc : ChatScreentVC
  popped : Bool
  deriving DecidableEq, Repr

/-- A request of `userNameFunction`. `answer` is what Firestore answered, a nil snapshot
for an error, and `handled` says that the completion has run. -/
structure NameRequest where
  screen : ℕ
  userid : String
  answer : Option (Option Snapshot)
  handled : Bool

structure World where
  currentUser : ℕ → Option String
  users : String → Option Fields
  /-- The versions of each document that Firestore has held. -/
  versions : String → List Fields
  screens : List Screen
  messages : String → Feed String Value ℕ ℕ
  nameRequests : List NameRequest

inductive Act
  /-- Firebase Auth changes the user of a client. -/
  | signedIn (client : ℕ) (user : Option String)
  /-- A write or a deletion of `Users/<uid>` takes effect. -/
  | usersWritten (uid : String) (document : Option Fields)
  | didSelectItemAt (client : ℕ) (community : Community)
  | viewDidAppear (screen : ℕ)
  | pop (screen : ℕ)
  | edit (screen : ℕ) (text : String)
  /-- A tap on send; `key` is what `childByAutoId` answers. -/
  | sendMessageAction (screen : ℕ) (key : String)
  /-- A child of `communities/<communityid>/Messages` that this app did not write. -/
  | foreignChild (communityid key : String) (value : Value)
  | accepted (communityid : String) (write : ℕ)
  | rejected (communityid : String) (write : ℕ)
  | childAdded (communityid : String) (observer : ℕ) (key : String)
  /-- The load of a user name is answered; `own` are the writes of the document by the same client
  that are not answered yet. -/
  | nameServed (request : ℕ) (own : List DocumentWrite) (source : LoadSource)
  | nameAnswered (request : ℕ)

def initial (currentUser : ℕ → Option String) (users : String → Option Fields) : World :=
  ⟨currentUser, users, fun uid => (users uid).toList, [], fun _ => Feed.empty, []⟩

def World.setFeed (w : World) (communityid : String) (feed : Feed String Value ℕ ℕ) : World :=
  { w with messages := Function.update w.messages communityid feed }

def World.setScreen (w : World) (s : ℕ) (screen : Screen) : World :=
  { w with screens := w.screens.set s screen }

def World.setRequest (w : World) (i : ℕ) (request : NameRequest) : World :=
  { w with nameRequests := w.nameRequests.set i request }

def World.writeUser (w : World) (uid : String) (document : Option Fields) : World :=
  { w with
    users := Function.update w.users uid document
    versions := Function.update w.versions uid (w.versions uid ++ document.toList) }

def World.nameAnswer (w : World) (uid : String) (own : List DocumentWrite) (source : LoadSource) :
    Option Snapshot :=
  answerFrom own (w.users uid) (w.versions uid) source

/-- What a call of screen `s` does to the world; reloading the table is not modelled. -/
def perform (s : ℕ) (screen : Screen) (key : String) (w : World) : Call → Option World
  | .observeMessages communityid =>
    some (w.setFeed communityid ((w.messages communityid).observe ⟨screen.client, s⟩))
  | .setMessage communityid dataArray =>
    ((w.messages communityid).write ⟨screen.client, s⟩ key (.dict dataArray)).map
      (w.setFeed communityid)
  | .getDocument uid => some { w with nameRequests := w.nameRequests ++ [⟨s, uid, none, false⟩] }
  | _ => some w

/-- The screen `s` while the user can act on it. -/
def World.onScreen (w : World) (s : ℕ) : Option Screen :=
  (w.screens[s]?).filter fun screen => !screen.popped

def step (w : World) : Act → Option World
  | .signedIn client user =>
    some { w with currentUser := Function.update w.currentUser client user }
  | .usersWritten uid document => some (w.writeUser uid document)
  | .didSelectItemAt client community =>
    some { w with screens := w.screens ++ [⟨client, { community := some community }, false⟩] }
  | .viewDidAppear s => do
    let screen ← w.onScreen s
    let calls ← (screen.vc.viewDidAppear (w.currentUser screen.client)).toOption
    calls.foldlM (perform s screen "") w
  | .pop s => do
    let screen ← w.onScreen s
    return w.setScreen s { screen with popped := true }
  | .edit s text => do
    let screen ← w.onScreen s
    return w.setScreen s { screen with vc := { screen.vc with messageTextField := text } }
  | .sendMessageAction s key => do
    let screen ← w.onScreen s
    (screen.vc.sendMessageAction (w.currentUser screen.client)).foldlM (perform s screen key) w
  | .foreignChild communityid key value => do
    let feed ← (w.messages communityid).insert key value
    return w.setFeed communityid feed
  | .accepted communityid i => do
    let (cb, feed) ← (w.messages communityid).accept i
    let screen ← w.screens[cb.owner]?
    return (w.setFeed communityid feed).setScreen cb.owner
      { screen with vc := screen.vc.sendMessageDone false }
  | .rejected communityid i => do
    let (cb, feed) ← (w.messages communityid).reject i
    let screen ← w.screens[cb.owner]?
    return (w.setFeed communityid feed).setScreen cb.owner
      { screen with vc := screen.vc.sendMessageDone true }
  | .childAdded communityid o key => do
    let (cb, value, feed) ← (w.messages communityid).deliver o key
    let screen ← w.screens[cb.owner]?
    return (w.setFeed communityid feed).setScreen cb.owner
      { screen with vc := (screen.vc.childAdded value).1 }
  | .nameServed i own source => do
    let request ← (w.nameRequests[i]?).filter fun r => r.answer.isNone
    return w.setRequest i
      { request with answer := some (w.nameAnswer request.userid own source) }
  | .nameAnswered i => do
    let request ← (w.nameRequests[i]?).filter fun r => !r.handled
    let snapshot ← request.answer
    let screen ← w.screens[request.screen]?
    let vc ← (screen.vc.userNameAnswer request.userid snapshot).toOption
    return (w.setScreen request.screen { screen with vc := vc }).setRequest i
      { request with handled := true }

theorem World.onScreen_eq_some {w : World} {s : ℕ} {screen : Screen} :
    w.onScreen s = some screen ↔ w.screens[s]? = some screen ∧ screen.popped = false := by
  simp [World.onScreen, Option.filter_eq_some_iff]

/-- The world after an appearance: one name request more, and one observer more when the
community is set. -/
def World.appeared (w : World) (s : ℕ) (screen : Screen) (userid : String) : World :=
  let asked := { w with nameRequests := w.nameRequests ++ [⟨s, userid, none, false⟩] }
  match screen.vc.community with
  | none => asked
  | some community => asked.setFeed community.communityID
      ((w.messages community.communityID).observe ⟨screen.client, s⟩)

/-- What each step does, with everything that was checked on the way. -/
inductive Effect (w : World) : Act → World → Prop
  | signedIn (client : ℕ) (user : Option String) :
      Effect w (.signedIn client user)
        { w with currentUser := Function.update w.currentUser client user }
  | usersWritten (uid : String) (document : Option Fields) :
      Effect w (.usersWritten uid document) (w.writeUser uid document)
  | opened (client : ℕ) (community : Community) :
      Effect w (.didSelectItemAt client community)
        { w with screens := w.screens ++ [⟨client, { community := some community }, false⟩] }
  | appeared {s : ℕ} {screen : Screen} {userid : String} (at_s : w.screens[s]? = some screen)
      (user : w.currentUser screen.client = some userid) :
      Effect w (.viewDidAppear s) (w.appeared s screen userid)
  | popped {s : ℕ} {screen : Screen} (at_s : w.screens[s]? = some screen) :
      Effect w (.pop s) (w.setScreen s { screen with popped := true })
  | edited {s : ℕ} {screen : Screen} (text : String) (at_s : w.screens[s]? = some screen) :
      Effect w (.edit s text)
        (w.setScreen s { screen with vc := { screen.vc with messageTextField := text } })
  | sentNothing {s : ℕ} {screen : Screen} (key : String) (at_s : w.screens[s]? = some screen)
      (calls : screen.vc.sendMessageAction (w.currentUser screen.client) = []) :
      Effect w (.sendMessageAction s key) w
  | sent {s : ℕ} {screen : Screen} {userid : String} {community : Community} {key : String}
      {feed : Feed String Value ℕ ℕ} (at_s : w.screens[s]? = some screen)
      (user : w.currentUser screen.client = some userid)
      (set : screen.vc.community = some community) (text : screen.vc.messageTextField ≠ "")
      (write : (w.messages community.communityID).write ⟨screen.client, s⟩ key
        (.dict (dataArray screen.vc.userName1 userid screen.vc.messageTextField)) = some feed) :
      Effect w (.sendMessageAction s key) (w.setFeed community.communityID feed)
  | inserted {communityid key : String} {value : Value} {feed : Feed String Value ℕ ℕ}
      (insert : (w.messages communityid).insert key value = some feed) :
      Effect w (.foreignChild communityid key value) (w.setFeed communityid feed)
  | accepted {communityid : String} {i : ℕ} {cb : Callback ℕ ℕ} {feed : Feed String Value ℕ ℕ}
      {screen : Screen} (accept : (w.messages communityid).accept i = some (cb, feed))
      (at_s : w.screens[cb.owner]? = some screen) :
      Effect w (.accepted communityid i) ((w.setFeed communityid feed).setScreen cb.owner
        { screen with vc := screen.vc.sendMessageDone false })
  | rejected {communityid : String} {i : ℕ} {cb : Callback ℕ ℕ} {feed : Feed String Value ℕ ℕ}
      {screen : Screen} (reject : (w.messages communityid).reject i = some (cb, feed))
      (at_s : w.screens[cb.owner]? = some screen) :
      Effect w (.rejected communityid i) ((w.setFeed communityid feed).setScreen cb.owner
        { screen with vc := screen.vc.sendMessageDone true })
  | delivered {communityid : String} {o : ℕ} {key : String} {cb : Callback ℕ ℕ} {value : Value}
      {feed : Feed String Value ℕ ℕ} {screen : Screen}
      (deliver : (w.messages communityid).deliver o key = some (cb, value, feed))
      (at_s : w.screens[cb.owner]? = some screen) :
      Effect w (.childAdded communityid o key) ((w.setFeed communityid feed).setScreen cb.owner
        { screen with vc := (screen.vc.childAdded value).1 })
  | nameServed {i : ℕ} {request : NameRequest} (own : List DocumentWrite) (source : LoadSource)
      (at_i : w.nameRequests[i]? = some request) (open_i : request.answer = none) :
      Effect w (.nameServed i own source) (w.setRequest i
        { request with answer := some (w.nameAnswer request.userid own source) })
  | nameAnswered {i : ℕ} {request : NameRequest} {snapshot : Option Snapshot} {screen : Screen}
      {vc : ChatScreentVC} (at_i : w.nameRequests[i]? = some request)
      (open_i : request.handled = false) (served : request.answer = some snapshot)
      (at_s : w.screens[request.screen]? = some screen)
      (decoded : screen.vc.userNameAnswer request.userid snapshot = .ok vc) :
      Effect w (.nameAnswered i) ((w.setScreen request.screen { screen with vc := vc }).setRequest
        i { request with handled := true })

/-- Every step is one of the effects. -/
theorem step_effect {w w' : World} {a : Act} (h : step w a = some w') : Effect w a w' := by
  cases a with
  | signedIn client user =>
    obtain rfl := Option.some.inj h
    exact .signedIn client user
  | usersWritten uid document =>
    obtain rfl := Option.some.inj h
    exact .usersWritten uid document
  | didSelectItemAt client community =>
    obtain rfl := Option.some.inj h
    exact .opened client community
  | viewDidAppear s =>
    simp only [step, Option.bind_eq_bind, Option.bind_eq_some_iff, World.onScreen_eq_some] at h
    obtain ⟨screen, ⟨hs, -⟩, calls, hcalls, hw⟩ := h
    cases hv : screen.vc.viewDidAppear (w.currentUser screen.client) with
    | error trap => simp [hv, Except.toOption] at hcalls
    | ok found =>
      obtain rfl : found = calls := by simpa [hv, Except.toOption] using hcalls
      obtain ⟨userid, hu, rfl⟩ := ChatScreentVC.viewDidAppear_eq_ok.mp hv
      have hw' : w' = w.appeared s screen userid := by
        unfold World.appeared
        cases hc : screen.vc.community <;>
          simpa [ChatScreentVC.getMessage, hc, perform, eq_comm] using hw
      exact hw' ▸ .appeared hs hu
  | pop s =>
    simp only [step, Option.bind_eq_bind, Option.bind_eq_some_iff, World.onScreen_eq_some] at h
    obtain ⟨screen, ⟨hs, -⟩, hw⟩ := h
    obtain rfl := Option.some.inj hw
    exact .popped hs
  | edit s text =>
    simp only [step, Option.bind_eq_bind, Option.bind_eq_some_iff, World.onScreen_eq_some] at h
    obtain ⟨screen, ⟨hs, -⟩, hw⟩ := h
    obtain rfl := Option.some.inj hw
    exact .edited text hs
  | sendMessageAction s key =>
    simp only [step, Option.bind_eq_bind, Option.bind_eq_some_iff, World.onScreen_eq_some] at h
    obtain ⟨screen, ⟨hs, -⟩, hw⟩ := h
    rcases screen.vc.sendMessageAction_cases (w.currentUser screen.client) with hn | ⟨call, hc⟩
    · obtain rfl : w = w' := by simpa [hn] using hw
      exact .sentNothing key hs hn
    · rw [hc] at hw
      obtain ⟨userid, community, hu, hset, ht, rfl⟩ :=
        ChatScreentVC.sendMessageAction_eq_singleton.mp hc
      obtain ⟨feed, hf, rfl⟩ : ∃ feed, (w.messages community.communityID).write
          ⟨screen.client, s⟩ key _ = some feed ∧ w.setFeed community.communityID feed = w' := by
        simpa [perform, Option.map_eq_some_iff] using hw
      exact .sent hs hu hset ht hf
  | foreignChild communityid key value =>
    simp only [step, Option.bind_eq_bind, Option.bind_eq_some_iff] at h
    obtain ⟨feed, hf, hw⟩ := h
    obtain rfl := Option.some.inj hw
    exact .inserted hf
  | accepted communityid i =>
    simp only [step, Option.bind_eq_bind, Option.bind_eq_some_iff] at h
    obtain ⟨⟨cb, feed⟩, hf, screen, hs, hw⟩ := h
    obtain rfl := Option.some.inj hw
    exact .accepted hf hs
  | rejected communityid i =>
    simp only [step, Option.bind_eq_bind, Option.bind_eq_some_iff] at h
    obtain ⟨⟨cb, feed⟩, hf, screen, hs, hw⟩ := h
    obtain rfl := Option.some.inj hw
    exact .rejected hf hs
  | childAdded communityid o key =>
    simp only [step, Option.bind_eq_bind, Option.bind_eq_some_iff] at h
    obtain ⟨⟨cb, value, feed⟩, hf, screen, hs, hw⟩ := h
    obtain rfl := Option.some.inj hw
    exact .delivered hf hs
  | nameServed i own source =>
    simp only [step, Option.bind_eq_bind, Option.bind_eq_some_iff, Option.filter_eq_some_iff,
      Option.isNone_iff_eq_none] at h
    obtain ⟨request, ⟨hi, ho⟩, hw⟩ := h
    obtain rfl := Option.some.inj hw
    exact .nameServed own source hi ho
  | nameAnswered i =>
    simp only [step, Option.bind_eq_bind, Option.bind_eq_some_iff, Option.filter_eq_some_iff,
      Bool.not_eq_true'] at h
    obtain ⟨request, ⟨hi, ho⟩, snapshot, hsnap, screen, hs, vc, hvc, hw⟩ := h
    obtain rfl := Option.some.inj hw
    cases hv : screen.vc.userNameAnswer request.userid snapshot with
    | error trap => simp [hv, Except.toOption] at hvc
    | ok found =>
      obtain rfl : found = vc := by simpa [hv, Except.toOption] using hvc
      exact .nameAnswered hi ho hsnap hs hv

end LoopChat.ChatSystem
