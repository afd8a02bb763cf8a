import LoopChat.TransitionRuns
import LoopChat.DeviceReactions

/-!
# Devices over Firebase

Any number of devices run the app over one Auth and one Firestore. A request is made by a
reaction of a device, served at any later time with any outcome, and completed on its
device at any time after that; `served` is the history of the answers. Auth may sign the user of
a device out by force at any time.
-/
namespace LoopChat.AppSystem
open FirebaseValues NavigationWindow TransitionRuns

/-- `reaction` is the number of the reaction that made the request. -/
structure Request where
  device : ℕ
  issuer : Option ℕ
  call : Call
  reaction : ℕ
  answer : Option Answer

structure World where
  stores : Stores
  devices : ℕ → Device
  requests : List Request
  served : List (Call × Answer)
  /-- The versions of each document that the server has held. -/
  versions : String → List Fields
  /-- The number of reactions so far. -/
  reactions : ℕ

inductive Act
  | tap (device : ℕ) (tap : Tap)
  | viewDidAppear (device : ℕ)
  | serve (request : ℕ) (outcome : Outcome)
  | complete (request : ℕ)
  | signOutByForce (device : ℕ)

/-- The app is launched on every device, over the given stores; Auth may still know the user
of an earlier session. -/
def initial (stores : Stores) (session : ℕ → Option String) : World :=
  ⟨stores, fun d => Device.launched (session d), [], [], fun uid => (stores.users uid).toList, 0⟩

def made (number device : ℕ) (reaction : Reaction) : List Request :=
  match reaction.calls with
  | .error _ => []
  | .ok calls => (calls.filter Call.isRequest).map
      fun call => ⟨device, reaction.issuer, call, number, none⟩

def World.follow (w : World) (device : ℕ) (reaction : Reaction) : World :=
  { w with
    devices := Function.update w.devices device reaction.after
    requests := w.requests ++ made w.reactions device reaction
    reactions := w.reactions + 1 }

/-- The write of `Users/<uid>` that the call asks for. -/
def documentWrite (uid : String) : Call → Option DocumentWrite
  | .setData u document => if u = uid then some (.set document) else none
  | .updateData u fields => if u = uid then some (.update fields) else none
  | .deleteDocument u => if u = uid then some .delete else none
  | _ => none

/-- The unanswered writes of `Users/<uid>` by the device. -/
def World.ownWrites (w : World) (device : ℕ) (uid : String) : List DocumentWrite :=
  (w.requests.filter fun r => r.device == device && r.answer.isNone).filterMap
    fun r => documentWrite uid r.call

/-- What Firestore answers a load of the device, which sees its own writes in the document. -/
def World.load (w : World) (device : ℕ) (outcome : Outcome) (uid : String) :
    Option (Option Snapshot) :=
  let answer := answerFrom (w.ownWrites device uid) (w.stores.users uid) (w.versions uid)
  match outcome with
  | .failed => some (answer .nowhere)
  | .done => some (answer .server)
  | .cached i => some (answer (.cache i))
  | .user _ => none

def step (normalise : String → String) (w : World) : Act → Option World
  | .tap d tap => ((w.devices d).tap tap).map (w.follow d)
  | .viewDidAppear d => (w.devices d).viewDidAppear.map (w.follow d)
  | .serve i outcome => do
    let request ← (w.requests[i]?).filter fun r => r.answer.isNone
    let (stores, answer) ←
      w.stores.serve normalise (w.load request.device outcome) request.call outcome
    return { w with
      stores := stores
      devices := Function.update w.devices request.device
        ((w.devices request.device).served request.call answer)
      requests := w.requests.set i { request with answer := some answer }
      served := w.served ++ [(request.call, answer)]
      versions := fun uid => w.versions uid ++ (stores.users uid).toList }
  | .complete i => do
    let request ← (w.requests[i]?).filter fun r => (w.devices r.device).trapped.isNone
    let answer ← request.answer
    return { w with requests := w.requests.eraseIdx i }.follow request.device
      ((w.devices request.device).complete request.issuer request.call answer)
  | .signOutByForce d =>
    some { w with devices := Function.update w.devices d (w.devices d).signOutByForce }

/-- What each step does; the request at the given index stands between `before` and `after`. -/
inductive Effect (normalise : String → String) (w : World) : Act → World → Prop
  | tapped {d : ℕ} {tap : Tap} {reaction : Reaction}
      (tapped : (w.devices d).tap tap = some reaction) :
      Effect normalise w (.tap d tap) (w.follow d reaction)
  | appeared {d : ℕ} {reaction : Reaction}
      (appeared : (w.devices d).viewDidAppear = some reaction) :
      Effect normalise w (.viewDidAppear d) (w.follow d reaction)
  | served {before after : List Request} {request : Request} {outcome : Outcome}
      {answer : Answer} {stores : Stores} (at_i : w.requests = before ++ request :: after)
      (waiting : request.answer = none)
      (serve : Stores.Effect normalise (w.load request.device outcome) w.stores request.call outcome
        answer stores) :
      Effect normalise w (.serve before.length outcome) { w with
        stores := stores
        devices := Function.update w.devices request.device
          ((w.devices request.device).served request.call answer)
        requests := before ++ { request with answer := some answer } :: after
        served := w.served ++ [(request.call, answer)]
        versions := fun uid => w.versions uid ++ (stores.users uid).toList }
  | completed {before after : List Request} {request : Request} {answer : Answer}
      (at_i : w.requests = before ++ request :: after) (answered : request.answer = some answer)
      (running : (w.devices request.device).trapped = none) :
      Effect normalise w (.complete before.length)
        ({ w with requests := before ++ after }.follow request.device
          ((w.devices request.device).complete request.issuer request.call answer))
  | signedOut (d : ℕ) : Effect normalise w (.signOutByForce d)
      { w with devices := Function.update w.devices d (w.devices d).signOutByForce }

variable {normalise : String → String} {w w' : World} {a : Act}

theorem eq_append_of_getElem? {α : Type*} {l : List α} {i : ℕ} {x : α} (h : l[i]? = some x) :
    ∃ before after, l = before ++ x :: after ∧ before.length = i ∧
      (∀ y, l.set i y = before ++ y :: after) ∧ l.eraseIdx i = before ++ after := by
  obtain ⟨hi, hx⟩ := List.getElem?_eq_some_iff.mp h
  refine ⟨l.take i, l.drop (i + 1), ?_, ?_, ?_, ?_⟩
  · rw [← hx, ← List.drop_eq_getElem_cons hi, List.take_append_drop]
  · exact List.length_take_of_le hi.le
  · intro y
    rw [List.set_eq_take_append_cons_drop, if_pos hi]
  · exact List.eraseIdx_eq_take_drop_succ l i

theorem step_effect (h : step normalise w a = some w') : Effect normalise w a w' := by
  cases a with
  | tap d tap =>
    obtain ⟨reaction, hr, rfl⟩ := Option.map_eq_some_iff.mp h
    exact .tapped hr
  | viewDidAppear d =>
    obtain ⟨reaction, hr, rfl⟩ := Option.map_eq_some_iff.mp h
    exact .appeared hr
  | serve i outcome =>
    simp only [step, Option.bind_eq_bind, Option.bind_eq_some_iff, Option.filter_eq_some_iff,
      Option.pure_def, Option.some.injEq, Option.isNone_iff_eq_none, Prod.exists] at h
    obtain ⟨request, ⟨hi, hw⟩, stores, answer, hs, rfl⟩ := h
    obtain ⟨before, after, heq, rfl, hset, -⟩ := eq_append_of_getElem? hi
    rw [hset]
    exact .served heq hw (Stores.serve_effect hs)
  | complete i =>
    simp only [step, Option.bind_eq_bind, Option.bind_eq_some_iff, Option.filter_eq_some_iff,
      Option.pure_def, Option.some.injEq, Option.isNone_iff_eq_none] at h
    obtain ⟨request, ⟨hi, ht⟩, answer, ha, rfl⟩ := h
    obtain ⟨before, after, heq, rfl, -, herase⟩ := eq_append_of_getElem? hi
    rw [herase]
    exact .completed heq ha ht
  | signOutByForce d => exact Option.some.inj h ▸ .signedOut d

/-- The first launch: no account, no document, nobody signed in. -/
def firstLaunch : World := initial .empty fun _ => none

/-- A sign-up on device 0, up to the root screen. -/
def signUp : List Act :=
  [.viewDidAppear 0, .tap 0 (.signupButtonAction "e" "p" "p" "n"), .serve 0 (.user "u"),
    .complete 0, .serve 0 .done, .complete 0, .viewDidAppear 0]

/-- From the root screen to the profile screen, which asks for its user. -/
def openProfile : List Act :=
  [.tap 0 .showSettings, .viewDidAppear 0, .tap 0 .showProfile, .viewDidAppear 0]

end LoopChat.AppSystem
