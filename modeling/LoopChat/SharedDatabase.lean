import LoopChat.PathStores
import LoopChat.TransitionRuns
import LoopChat.CommunityRows

/-!
# Creations, lists and chats over one tree

The communities and their messages stand in one tree of the Realtime Database, a message below
its community. Each client has a list of communities, creation forms and chats, sees the tree
with its own unanswered writes laid over it, and has its writes answered in the order in which
it made them. A creation replaces all that stands below its key. Each write is applied at most
once: that the client sends an unacknowledged write again after a reconnect is not part of this
system.
-/
namespace LoopChat
open FirebaseValues PathStores

instance : Nested String Value where
  dict := Value.dict
  asDict := Value.asDict
  asDict_dict _ := rfl

namespace SharedDatabase

/-- A write of the app, by the object whose completion handler is called. -/
inductive Write
  | community (key : String) (dataArray : Fields) (form : ℕ)
  | message (communityid key : String) (dataArray : Fields) (chat : ℕ)

namespace Write

def path : Write → List String
  | community key _ _ => ["communities", key]
  | message communityid key _ _ => ["communities", communityid, "Messages", key]

def fields : Write → Fields
  | community _ dataArray _ => dataArray
  | message _ _ dataArray _ => dataArray

def value (write : Write) : Value := .dict write.fields

end Write

structure Chat where
  vc : ChatScreentVC
  popped : Bool := false
  /-- The observers registered by `getMessage`, and the events each was raised. -/
  observers : ℕ := 0
  raised : List (ℕ × String) := []

structure Client where
  currentUser : Option String
  list : CommunityVC := {}
  observers : ℕ := 0
  raised : List (ℕ × String) := []
  forms : List CreateCommunityVC := []
  chats : List Chat := []
  unanswered : List Write := []

structure World where
  root : Value
  clients : ℕ → Client
  /-- The keys handed out by `childByAutoId`. -/
  issued : List String
  /-- Each answered write with its client and whether it was accepted, oldest first. -/
  answered : List (ℕ × Write × Bool)

/-- What happens on one client. -/
inductive LocalAct
  | signedIn (user : Option String)
  -- CommunityVC
  | viewDidAppear
  | communityAdded (observer : ℕ) (key : String)
  | didSelectItemAt (row : ℕ)
  -- CreateCommunityVC
  | pushCreateCommunity
  | editName (form : ℕ) (text : String)
  | createCommunityButton (form : ℕ) (key : String)
  -- ChatScreentVC
  | chatDidAppear (chat : ℕ)
  | pop (chat : ℕ)
  | userNameAnswer (chat : ℕ) (userid : String) (snapshot : Option Snapshot)
  | editMessage (chat : ℕ) (text : String)
  | sendMessageAction (chat : ℕ) (key : String)
  | messageAdded (chat observer : ℕ) (key : String)

inductive Act
  | on (client : ℕ) (act : LocalAct)
  /-- The server answers the oldest unanswered write of a client. -/
  | accepted (client : ℕ)
  | rejected (client : ℕ)

/-- The key that `childByAutoId` answers in the course of the act. -/
def LocalAct.key : LocalAct → Option String
  | .createCommunityButton _ key => some key
  | .sendMessageAction _ key => some key
  | _ => none

def initial (currentUser : ℕ → Option String) : World :=
  ⟨.dict [], fun c => { currentUser := currentUser c }, [], []⟩

namespace Client

def setChat (client : Client) (i : ℕ) (chat : Chat) : Client :=
  { client with chats := client.chats.set i chat }

def setForm (client : Client) (i : ℕ) (form : CreateCommunityVC) : Client :=
  { client with forms := client.forms.set i form }

/-- A call of the list, of the form `i` or of the chat `i`; the requests to Firestore, the
screens and the reloads are not part of this system. -/
def perform (i : ℕ) (key : String) (client : Client) : Call → Client
  | .observeCommunities => { client with observers := client.observers + 1 }
  | .observeMessages _ =>
    match client.chats[i]? with
    | none => client
    | some chat => client.setChat i { chat with observers := chat.observers + 1 }
  | .setCommunity dataArray =>
    { client with unanswered := client.unanswered ++ [.community key dataArray i] }
  | .setMessage communityid dataArray =>
    { client with unanswered := client.unanswered ++ [.message communityid key dataArray i] }
  | _ => client

/-- The chat while the user can act on it. -/
def onScreen (client : Client) (i : ℕ) : Option Chat :=
  (client.chats[i]?).filter fun chat => !chat.popped

/-- What an act does on a client that sees `view`. An index out of range and a failing force
operation stop the process: such an act has no successor. -/
def step (client : Client) (view : Value) : LocalAct → Option Client
  | .signedIn user => some { client with currentUser := user }
  | .viewDidAppear =>
    let (list, calls) := client.list.viewDidAppear client.currentUser
    some (calls.foldl (perform 0 "") { client with list := list })
  | .communityAdded o key => do
    let value ← get ["communities", key] view
    if o < client.observers ∧ (o, key) ∉ client.raised
    then some { client with
      list := (client.list.childAdded key value).1
      raised := client.raised ++ [(o, key)] }
    else none
  | .didSelectItemAt row => do
    let vc ← client.list.didSelectItemAt row
    return { client with chats := client.chats ++ [{ vc := vc }] }
  | .pushCreateCommunity => some { client with forms := client.forms ++ [{}] }
  | .editName i text => do
    let form ← client.forms[i]?
    return client.setForm i { form with addNewName := text }
  | .createCommunityButton i key => do
    let form ← client.forms[i]?
    return form.createCommunityButton.foldl (perform i key) client
  | .chatDidAppear i => do
    let chat ← client.onScreen i
    let calls ← (chat.vc.viewDidAppear client.currentUser).toOption
    return calls.foldl (perform i "") client
  | .pop i => do
    let chat ← client.onScreen i
    return client.setChat i { chat with popped := true }
  | .userNameAnswer i userid snapshot => do
    let chat ← client.chats[i]?
    let vc ← (chat.vc.userNameAnswer userid snapshot).toOption
    return client.setChat i { chat with vc := vc }
  | .editMessage i text => do
    let chat ← client.onScreen i
    return client.setChat i { chat with vc := { chat.vc with messageTextField := text } }
  | .sendMessageAction i key => do
    let chat ← client.onScreen i
    return (chat.vc.sendMessageAction client.currentUser).foldl (perform i key) client
  | .messageAdded i o key => do
    let chat ← client.chats[i]?
    let community ← chat.vc.community
    let value ← get ["communities", community.communityID, "Messages", key] view
    if o < chat.observers ∧ (o, key) ∉ chat.raised
    then some (client.setChat i { chat with
      vc := (chat.vc.childAdded value).1
      raised := chat.raised ++ [(o, key)] })
    else none

/-- The completion handler of a write. -/
def completed (client : Client) (error : Bool) : Write → Client
  | .community _ _ i => { client with
      forms := client.forms.modify i fun form => form.createCommunityDone error }
  | .message _ _ _ i => { client with
      chats := client.chats.modify i fun chat =>
        { chat with vc := chat.vc.sendMessageDone error } }

end Client

namespace World

/-- What a client sees: the tree, with its unanswered writes on top. -/
def view (w : World) (c : ℕ) : Value :=
  overlay ((w.clients c).unanswered.map fun write => (write.path, write.value)) w.root

/-- The oldest unanswered write of a client is answered. -/
def answer (w : World) (c : ℕ) (ok : Bool) : Option World :=
  match (w.clients c).unanswered with
  | [] => none
  | write :: rest => some {
      root := if ok then set write.path write.value w.root else w.root
      clients := Function.update w.clients c
        (({ w.clients c with unanswered := rest } : Client).completed (!ok) write)
      issued := w.issued
      answered := w.answered ++ [(c, write, ok)] }

end World

def step (w : World) : Act → Option World
  | .on c act =>
    if ∃ key ∈ act.key, key ∈ w.issued then none else do
    let client ← (w.clients c).step (w.view c) act
    return { w with
      clients := Function.update w.clients c client
      issued := act.key.toList ++ w.issued }
  | .accepted c => w.answer c true
  | .rejected c => w.answer c false

/-! ### What an act does on a client -/

namespace Client

def Lists (client : Client) (community : Community) : Prop :=
  community ∈ client.list.arrayOfCommunities

def Opens (client : Client) (community : Community) : Prop :=
  ∃ chat ∈ client.chats, chat.vc.community = some community

def Shows (client : Client) (community : Community) (message : Message) : Prop :=
  ∃ chat ∈ client.chats, chat.vc.community = some community ∧ message ∈ chat.vc.messageArr

/-- Nothing is listed, opened or shown that was not before. -/
structure Within (client' client : Client) : Prop where
  list : client'.list.arrayOfCommunities ⊆ client.list.arrayOfCommunities
  chats : ∀ chat' ∈ client'.chats, ∃ chat ∈ client.chats,
    chat'.vc.community = chat.vc.community ∧ chat'.vc.messageArr ⊆ chat.vc.messageArr

end Client

/-- What the app writes under a new key: a creation with a name, or a message with a text to a
community that is open in a chat. -/
inductive Made (client : Client) (key : String) : Write → Prop
  | community {name : String} (form : ℕ) (named : name ≠ "") :
      Made client key (.community key [("CommunityName", .string name)] form)
  | message {community : Community} {text : String} (name userid : String) (chat : ℕ)
      (opens : client.Opens community) (filled : text ≠ "") :
      Made client key (.message community.communityID key (dataArray name userid text) chat)

/-- Whatever an act lists or shows is seen, whatever it opens is listed, and it makes at most
one write. -/
structure LocalSpec (client : Client) (view : Value) (act : LocalAct) (client' : Client) :
    Prop where
  lists : ∀ community, client'.Lists community → client.Lists community ∨ ∃ value,
    get ["communities", community.communityID] view = some value ∧
      decodeCommunity community.communityID value = some community
  opens : ∀ community, client'.Opens community → client.Opens community ∨ client.Lists community
  shows : ∀ community message, client'.Shows community message →
    client.Shows community message ∨ client.Opens community ∧ ∃ key value,
      get ["communities", community.communityID, "Messages", key] view = some value ∧
        decodeMessage value = some message
  writes : client'.unanswered = client.unanswered ∨ ∃ key write, act.key = some key ∧
    client'.unanswered = client.unanswered ++ [write] ∧ Made client key write

variable {client client' : Client} {view : Value} {act : LocalAct} {community : Community}
  {message : Message}

namespace Client

theorem Within.lists (h : client'.Within client) (hl : client'.Lists community) :
    client.Lists community := h.list hl

theorem Within.opens (h : client'.Within client) (ho : client'.Opens community) :
    client.Opens community := by
  obtain ⟨chat', hmem', hset'⟩ := ho
  obtain ⟨chat, hmem, hset, -⟩ := h.chats chat' hmem'
  exact ⟨chat, hmem, hset ▸ hset'⟩

theorem Within.shows (h : client'.Within client) (hs : client'.Shows community message) :
    client.Shows community message := by
  obtain ⟨chat', hmem', hset', harr⟩ := hs
  obtain ⟨chat, hmem, hset, hsub⟩ := h.chats chat' hmem'
  exact ⟨chat, hmem, hset ▸ hset', hsub harr⟩

theorem Within.refl (client : Client) : client.Within client :=
  ⟨List.Subset.refl _, fun chat hmem => ⟨chat, hmem, rfl, List.Subset.refl _⟩⟩

theorem Within.trans {client'' : Client} (h : client''.Within client')
    (h' : client'.Within client) : client''.Within client := by
  refine ⟨fun _ hmem => h'.list (h.list hmem), fun chat'' hmem'' => ?_⟩
  obtain ⟨chat', hmem', hset', hsub'⟩ := h.chats chat'' hmem''
  obtain ⟨chat, hmem, hset, hsub⟩ := h'.chats chat' hmem'
  exact ⟨chat, hmem, hset'.trans hset, fun _ hm => hsub (hsub' hm)⟩

theorem Within.of_eq (hlist : client'.list = client.list) (hchats : client'.chats = client.chats) :
    client'.Within client :=
  ⟨by rw [hlist]; exact List.Subset.refl _,
    fun chat hmem => ⟨chat, hchats ▸ hmem, rfl, List.Subset.refl _⟩⟩

/-- A chat replaced by one on the same community with the same messages. -/
theorem Within.setChat {i : ℕ} {chat chat' : Chat} (hi : client.chats[i]? = some chat)
    (hset : chat'.vc.community = chat.vc.community)
    (harr : chat'.vc.messageArr = chat.vc.messageArr) : (client.setChat i chat').Within client := by
  refine ⟨List.Subset.refl _, fun x hx => ?_⟩
  rcases List.mem_or_eq_of_mem_set hx with hx | rfl
  · exact ⟨x, hx, rfl, List.Subset.refl _⟩
  · exact ⟨chat, List.mem_of_getElem? hi, hset, harr ▸ List.Subset.refl _⟩

/-- The completion handlers change texts and nothing else. -/
theorem completed_within (client : Client) (error : Bool) (write : Write) :
    (client.completed error write).Within client ∧
      (client.completed error write).unanswered = client.unanswered := by
  cases write with
  | community key dataArray i => exact ⟨.of_eq rfl rfl, rfl⟩
  | message communityid key dataArray i =>
    refine ⟨⟨List.Subset.refl _, fun chat' hmem' => ?_⟩, rfl⟩
    obtain ⟨j, hj⟩ := List.mem_iff_getElem?.mp hmem'
    rw [completed, List.getElem?_modify] at hj
    obtain ⟨chat, hchat, rfl⟩ := Option.map_eq_some_iff.mp hj
    refine ⟨chat, List.mem_of_getElem? hchat, ?_⟩
    split_ifs
    · cases error <;> exact ⟨rfl, List.Subset.refl _⟩
    · exact ⟨rfl, List.Subset.refl _⟩

end Client

theorem LocalSpec.quiet (h : client'.Within client)
    (hu : client'.unanswered = client.unanswered) : LocalSpec client view act client' where
  lists _ hl := Or.inl (h.lists hl)
  opens _ ho := Or.inl (h.opens ho)
  shows _ _ hs := Or.inl (h.shows hs)
  writes := Or.inl hu

theorem LocalSpec.write {key : String} {write : Write} (h : client'.Within client)
    (hkey : act.key = some key) (hu : client'.unanswered = client.unanswered ++ [write])
    (hmade : Made client key write) : LocalSpec client view act client' where
  lists _ hl := Or.inl (h.lists hl)
  opens _ ho := Or.inl (h.opens ho)
  shows _ _ hs := Or.inl (h.shows hs)
  writes := Or.inr ⟨key, write, hkey, hu, hmade⟩

namespace Client

theorem onScreen_eq_some {i : ℕ} {chat : Chat} :
    client.onScreen i = some chat ↔ client.chats[i]? = some chat ∧ chat.popped = false := by
  simp [onScreen, Option.filter_eq_some_iff]

/-- The completion handler of a load changes the name under which messages are sent. -/
theorem userNameAnswer_toOption {vc vc' : ChatScreentVC} {userid : String}
    {snapshot : Option Snapshot} (h : (vc.userNameAnswer userid snapshot).toOption = some vc') :
    vc'.community = vc.community ∧ vc'.messageArr = vc.messageArr := by
  cases hv : vc.userNameAnswer userid snapshot with
  | error trap => simp [hv, Except.toOption] at h
  | ok found =>
    obtain rfl : found = vc' := by simpa [hv, Except.toOption] using h
    obtain ⟨user, -, rfl⟩ := ChatScreentVC.userNameAnswer_eq_ok.mp hv
    exact ⟨rfl, rfl⟩

theorem step_spec (h : client.step view act = some client') :
    LocalSpec client view act client' := by
  cases act with
  | signedIn user =>
    obtain rfl := Option.some.inj h
    exact .quiet (.of_eq rfl rfl) rfl
  | viewDidAppear =>
    have heq : client' = { client with
        list := { arrayOfCommunities := [] }, observers := client.observers + 1 } := by
      cases hu : client.currentUser <;>
        simpa [step, CommunityVC.viewDidAppear, CommunityVC.presentLoginScreen,
          CommunityVC.observeCommunity, perform, hu, eq_comm] using h
    subst heq
    exact .quiet ⟨List.nil_subset _, fun chat hmem => ⟨chat, hmem, rfl, List.Subset.refl _⟩⟩ rfl
  | communityAdded o key =>
    obtain ⟨value, hseen, heq⟩ := Option.bind_eq_some_iff.mp h
    split_ifs at heq
    obtain rfl := Option.some.inj heq
    refine ⟨fun community hl => ?_, fun _ ho => Or.inl ho, fun _ _ hs => Or.inl hs, Or.inl rfl⟩
    rw [Lists, CommunityVC.childAdded_array] at hl
    refine (List.mem_append.mp hl).imp_right fun hnew => ?_
    have hdecode := Option.mem_toList.mp hnew
    obtain ⟨-, -, -, rfl⟩ := decodeCommunity_eq_some.mp hdecode
    exact ⟨value, hseen, hdecode⟩
  | didSelectItemAt row =>
    obtain ⟨vc, hvc, heq⟩ := Option.bind_eq_some_iff.mp h
    obtain rfl := Option.some.inj heq
    obtain ⟨item, hitem, rfl⟩ := CommunityRows.didSelectItemAt_eq_some.mp hvc
    refine ⟨fun _ hl => Or.inl hl, ?_, ?_, Or.inl rfl⟩
    · rintro community ⟨chat, hmem, hset⟩
      rcases List.mem_append.mp hmem with hmem | hmem
      · exact Or.inl ⟨chat, hmem, hset⟩
      · obtain rfl := List.mem_singleton.mp hmem
        obtain rfl := Option.some.inj hset
        exact Or.inr (List.mem_of_getElem? hitem)
    · rintro community message ⟨chat, hmem, hset, harr⟩
      rcases List.mem_append.mp hmem with hmem | hmem
      · exact Or.inl ⟨chat, hmem, hset, harr⟩
      · obtain rfl := List.mem_singleton.mp hmem
        exact absurd harr (by simp)
  | pushCreateCommunity =>
    obtain rfl := Option.some.inj h
    exact .quiet (.of_eq rfl rfl) rfl
  | editName i text =>
    obtain ⟨form, -, heq⟩ := Option.bind_eq_some_iff.mp h
    obtain rfl := Option.some.inj heq
    exact .quiet (.of_eq rfl rfl) rfl
  | createCommunityButton i key =>
    obtain ⟨form, -, heq⟩ := Option.bind_eq_some_iff.mp h
    obtain rfl := Option.some.inj heq
    unfold CreateCommunityVC.createCommunityButton
    split_ifs with hname
    · exact .quiet (.refl client) rfl
    · exact .write (.of_eq rfl rfl) rfl rfl (.community i hname)
  | chatDidAppear i =>
    obtain ⟨chat, hchat, h⟩ := Option.bind_eq_some_iff.mp h
    obtain ⟨calls, hcalls, heq⟩ := Option.bind_eq_some_iff.mp h
    obtain rfl := Option.some.inj heq
    cases hv : chat.vc.viewDidAppear client.currentUser with
    | error trap => simp [hv, Except.toOption] at hcalls
    | ok found =>
      obtain rfl : found = calls := by simpa [hv, Except.toOption] using hcalls
      obtain ⟨userid, -, rfl⟩ := ChatScreentVC.viewDidAppear_eq_ok.mp hv
      have hi := (onScreen_eq_some.mp hchat).1
      cases hset : chat.vc.community with
      | none =>
        simpa [ChatScreentVC.getMessage, hset, perform] using
          LocalSpec.quiet (.refl client) rfl
      | some community =>
        have hquiet : LocalSpec client view (.chatDidAppear i)
            (client.setChat i { chat with observers := chat.observers + 1 }) :=
          .quiet (.setChat hi rfl rfl) rfl
        simpa [ChatScreentVC.getMessage, hset, perform, hi] using hquiet
  | pop i =>
    obtain ⟨chat, hchat, heq⟩ := Option.bind_eq_some_iff.mp h
    obtain rfl := Option.some.inj heq
    exact .quiet (.setChat (onScreen_eq_some.mp hchat).1 rfl rfl) rfl
  | userNameAnswer i userid snapshot =>
    obtain ⟨chat, hchat, h⟩ := Option.bind_eq_some_iff.mp h
    obtain ⟨vc, hvc, heq⟩ := Option.bind_eq_some_iff.mp h
    obtain rfl := Option.some.inj heq
    obtain ⟨hset, harr⟩ := userNameAnswer_toOption hvc
    exact .quiet (.setChat hchat hset harr) rfl
  | editMessage i text =>
    obtain ⟨chat, hchat, heq⟩ := Option.bind_eq_some_iff.mp h
    obtain rfl := Option.some.inj heq
    exact .quiet (.setChat (onScreen_eq_some.mp hchat).1 rfl rfl) rfl
  | sendMessageAction i key =>
    obtain ⟨chat, hchat, heq⟩ := Option.bind_eq_some_iff.mp h
    obtain rfl := Option.some.inj heq
    rcases chat.vc.sendMessageAction_cases client.currentUser with hn | ⟨call, hc⟩
    · rw [hn]
      exact .quiet (.refl client) rfl
    · rw [hc]
      obtain ⟨userid, community, -, hset, ht, rfl⟩ :=
        ChatScreentVC.sendMessageAction_eq_singleton.mp hc
      have hopens : client.Opens community :=
        ⟨chat, List.mem_of_getElem? (onScreen_eq_some.mp hchat).1, hset⟩
      exact .write (.of_eq rfl rfl) rfl rfl (.message _ userid i hopens ht)
  | messageAdded i o key =>
    obtain ⟨chat, hchat, h⟩ := Option.bind_eq_some_iff.mp h
    obtain ⟨community, hset, h⟩ := Option.bind_eq_some_iff.mp h
    obtain ⟨value, hseen, heq⟩ := Option.bind_eq_some_iff.mp h
    split_ifs at heq
    obtain rfl := Option.some.inj heq
    have hmem := List.mem_of_getElem? hchat
    refine ⟨fun _ hl => Or.inl hl, ?_, ?_, Or.inl rfl⟩
    · rintro community' ⟨chat', hmem', hset'⟩
      rcases List.mem_or_eq_of_mem_set hmem' with hold | rfl
      · exact Or.inl ⟨chat', hold, hset'⟩
      · exact Or.inl ⟨chat, hmem, by simpa using hset'⟩
    · rintro community' message ⟨chat', hmem', hset', harr⟩
      rcases List.mem_or_eq_of_mem_set hmem' with hold | rfl
      · exact Or.inl ⟨chat', hold, hset', harr⟩
      · have hset₀ : chat.vc.community = some community' := by simpa using hset'
        obtain rfl := Option.some.inj (hset.symm.trans hset₀)
        rw [ChatScreentVC.childAdded_messageArr] at harr
        rcases List.mem_append.mp harr with hold | hnew
        · exact Or.inl ⟨chat, hmem, hset, hold⟩
        · exact Or.inr ⟨⟨chat, hmem, hset⟩, key, value, hseen, Option.mem_toList.mp hnew⟩

end Client

end SharedDatabase

end LoopChat
