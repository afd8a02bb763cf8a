import LoopChat.AppRuns

/-!
# What is requested, and what is stored in Users

Taps and appearances make all requests but one: the document of a new user is written by the
completion handler of its sign-up. Whatever is written keeps every stored profile readable.
-/
namespace LoopChat
open FirebaseValues NavigationWindow

/-- A document that both loads can decode, with the uid it is stored under. -/
structure CompleteProfile (uid : String) (document : Fields) : Prop where
  userID : document.string "userID" = some uid
  userName : ∃ name, document.string "userName" = some name
  email : ∃ email, document.string "email" = some email

theorem CompleteProfile.decodes {uid : String} {document : Fields}
    (h : CompleteProfile uid document) :
    ∃ user, decodeUser uid (some (some document)) = .ok user := by
  obtain ⟨name, hname⟩ := h.userName
  exact ⟨_, decodeUser_eq_ok.mpr ⟨document, name, rfl, hname, rfl⟩⟩

theorem completeProfile_userDocument (userName email uid : String) :
    CompleteProfile uid (SignupAndLoginVC.userDocument userName email uid) :=
  ⟨rfl, ⟨userName, rfl⟩, ⟨email, rfl⟩⟩

theorem CompleteProfile.update {uid : String} {document : Fields} (h : CompleteProfile uid document)
    (name email : String) :
    CompleteProfile uid (document.merge (UserProfileVC.updateFields name email)) where
  userID := by
    rw [Fields.string_merge]
    exact h.userID
  userName := ⟨name, rfl⟩
  email := ⟨email, rfl⟩

/-- What may be written to a document. -/
def Call.WritesProfile : Call → Prop
  | .setData uid document =>
    ∃ userName email, document = SignupAndLoginVC.userDocument userName email uid
  | .updateData _ fields => ∃ name email, fields = UserProfileVC.updateFields name email
  | _ => True

namespace AppSystem
open TransitionRuns

/-- The requests that a tap or an appearance can make. -/
inductive UserCall : Call → Prop
  | getDocument (uid : String) : UserCall (.getDocument uid)
  | updateData (uid name email : String) :
      UserCall (.updateData uid (UserProfileVC.updateFields name email))
  | deleteDocument (uid : String) : UserCall (.deleteDocument uid)
  | createUser (email password userName : String) : UserCall (.createUser email password userName)
  | signIn (email password : String) : UserCall (.signIn email password)
  | updateEmail (uid email : String) : UserCall (.updateEmail uid email)
  | deleteUser (uid : String) : UserCall (.deleteUser uid)
  | sendPasswordReset (email : String) : UserCall (.sendPasswordReset email)

variable {normalise : String → String} {stores : Stores} {session : ℕ → Option String}
  {load : String → Option (Option Snapshot)} {w w' : World} {a : Act} {as : List Act} {n d : ℕ}
  {dev : Device} {t : Tap} {reaction : Reaction} {issuer : Option ℕ} {r : Request}

theorem documentWrite_eq_set {uid : String} {call : Call} {document : Fields} :
    documentWrite uid call = some (.set document) ↔ call = .setData uid document := by
  cases call <;> simp [documentWrite]

theorem documentWrite_eq_update {uid : String} {call : Call} {fields : Fields} :
    documentWrite uid call = some (.update fields) ↔ call = .updateData uid fields := by
  cases call <;> simp [documentWrite]

theorem mem_ownWrites {device : ℕ} {uid : String} {write : DocumentWrite}
    (h : write ∈ w.ownWrites device uid) :
    ∃ r ∈ w.requests, documentWrite uid r.call = some write := by
  obtain ⟨r, hr, hcall⟩ := List.mem_filterMap.mp h
  exact ⟨r, (List.mem_filter.mp hr).1, hcall⟩

/-- What the writes and the versions of a document keep to, every load of it keeps to. -/
theorem of_load {P : Fields → Prop} {device : ℕ} {outcome : Outcome} {uid : String}
    {document : Fields} (hload : w.load device outcome uid = some (some (some document)))
    (hset : ∀ r ∈ w.requests, ∀ fields, r.call = .setData uid fields → P fields)
    (hupdate : ∀ r ∈ w.requests, ∀ fields, r.call = .updateData uid fields →
      ∀ document, P document → P (document.merge fields))
    (hdocument : ∀ document, w.stores.users uid = some document → P document)
    (hversions : ∀ document ∈ w.versions uid, P document) : P document := by
  obtain ⟨source, hanswer⟩ : ∃ source, answerFrom (w.ownWrites device uid) (w.stores.users uid)
      (w.versions uid) source = some (some document) := by
    cases outcome with
    | done => exact ⟨.server, Option.some.inj hload⟩
    | cached i => exact ⟨.cache i, Option.some.inj hload⟩
    | failed => exact ⟨.nowhere, Option.some.inj hload⟩
    | user uid' => cases hload
  refine of_answerFrom (fun fields hmem => ?_) (fun fields hmem => ?_) hdocument hversions hanswer
  · obtain ⟨r, hr, hcall⟩ := mem_ownWrites hmem
    exact hset r hr fields (documentWrite_eq_set.mp hcall)
  · obtain ⟨r, hr, hcall⟩ := mem_ownWrites hmem
    exact hupdate r hr fields (documentWrite_eq_update.mp hcall)

theorem mem_made : r ∈ made n d reaction ↔ ∃ calls call, reaction.calls = .ok calls ∧
    call ∈ calls ∧ call.isRequest = true ∧ r = ⟨d, reaction.issuer, call, n, none⟩ := by
  unfold made
  cases hc : reaction.calls with
  | error trap => simp
  | ok calls =>
    simp only [List.mem_map, List.mem_filter]
    constructor
    · rintro ⟨call, ⟨hmem, hreq⟩, rfl⟩
      exact ⟨calls, call, rfl, hmem, hreq, rfl⟩
    · rintro ⟨_, call, heq, hmem, hreq, rfl⟩
      obtain rfl := Except.ok.inj heq
      exact ⟨call, ⟨hmem, hreq⟩, rfl⟩

theorem tap_userCall (ht : Device.TapEffect dev t reaction) (hr : r ∈ made n d reaction) :
    r.answer = none ∧ UserCall r.call := by
  obtain ⟨calls, call, hc, hmem, hreq, rfl⟩ := mem_made.mp hr
  refine ⟨rfl, ?_⟩
  cases ht with
  | loggedOut idle stack =>
    obtain rfl := Except.ok.inj hc
    simp only [SettignScreenVC.logoutButton, SettignScreenVC.presentLoginScreen, List.mem_cons,
      List.not_mem_nil, or_false] at hmem
    rcases hmem with rfl | rfl <;> simp [Call.isRequest] at hreq
  | updated idle stack =>
    obtain ⟨uid, -, rfl⟩ := UserProfileVC.update_eq_ok.mp hc
    rcases List.mem_pair.mp hmem with rfl | rfl
    · exact .updateData uid _ _
    · exact .updateEmail uid _
  | asked idle stack =>
    obtain rfl := Except.ok.inj hc
    obtain rfl := List.mem_singleton.mp hmem
    simp [Call.isRequest] at hreq
  | confirmed covers kind =>
    obtain ⟨uid, -, rfl⟩ := UserProfileVC.deleteAccountYes_eq_ok.mp hc
    rcases List.mem_pair.mp hmem with rfl | rfl
    · exact .deleteDocument uid
    · exact .deleteUser uid
  | called covers call_kind =>
    obtain rfl := Except.ok.inj hc
    obtain rfl := List.mem_singleton.mp hmem
    cases call_kind with
    | createUser email password userName => exact .createUser email password userName
    | signIn email password => exact .signIn email password
    | sendPasswordReset email => exact .sendPasswordReset email
    | _ => simp [Call.isRequest] at hreq
  | _ =>
    obtain rfl := Except.ok.inj hc
    simp at hmem

/-- The only request of an appearance is the load of the screen on top, for whoever is
signed in. -/
theorem made_viewDidAppear (ha : dev.viewDidAppear = some reaction) (hr : r ∈ made n d reaction) :
    ∃ uid, dev.currentUser = some uid ∧ ∃ p ∈ dev.window.stack,
      r = ⟨d, some p.id, .getDocument uid, n, none⟩ := by
  obtain ⟨calls, call, hc, hmem, hreq, rfl⟩ := mem_made.mp hr
  obtain ⟨-, -, rfl⟩ := Device.viewDidAppear_eq_some.mp ha
  have happearance := Device.appearance_call hc hmem
  generalize hissuer : dev.appearance.1 = issuer at happearance ⊢
  cases happearance with
  | @getDocument uid p signed_in on_stack => exact ⟨uid, signed_in, p, on_stack, rfl⟩
  | _ => simp [Call.isRequest] at hreq

theorem viewDidAppear_userCall (ha : dev.viewDidAppear = some reaction)
    (hr : r ∈ made n d reaction) : r.answer = none ∧ UserCall r.call := by
  obtain ⟨uid, -, p, -, rfl⟩ := made_viewDidAppear ha hr
  exact ⟨rfl, .getDocument uid⟩

/-- The only request made by a completion handler is the `setData` of a new user. -/
theorem made_complete {call : Call} {answer : Answer}
    (hc : Device.CompleteEffect dev issuer call answer reaction) :
    (∃ email password userName uid, call = .createUser email password userName ∧
      answer = .user uid ∧ made n d reaction =
        [⟨d, issuer, .setData uid (SignupAndLoginVC.userDocument userName email uid), n, none⟩]) ∨
    (made n d reaction = [] ∧ ∀ email password userName uid,
      ¬ (call = .createUser email password userName ∧ answer = .user uid)) := by
  cases hc with
  | signedUp email password userName uid =>
    exact Or.inl ⟨email, password, userName, uid, rfl, rfl, rfl⟩
  | nothing no_auth no_delete =>
    refine Or.inr ⟨rfl, ?_⟩
    rintro email password userName uid ⟨rfl, rfl⟩
    simp [Call.authenticates] at no_auth
  | _ => exact Or.inr ⟨rfl, by simp⟩

/-! ### The stored profiles -/

theorem UserCall.writesProfile {call : Call} (h : UserCall call) : call.WritesProfile := by
  cases h with
  | updateData uid name email => exact ⟨name, email, rfl⟩
  | _ => trivial

structure ProfilesComplete (w : World) : Prop where
  requested : ∀ r ∈ w.requests, r.call.WritesProfile
  stored : ∀ uid document, w.stores.users uid = some document → CompleteProfile uid document
  versions : ∀ uid, ∀ document ∈ w.versions uid, CompleteProfile uid document

/-- A served request keeps the stored profiles complete. -/
theorem ProfilesComplete.served (h : ProfilesComplete w) {request : Request} {outcome : Outcome}
    {answer : Answer} (hmem : request ∈ w.requests)
    (serve : Stores.Effect normalise load w.stores request.call outcome answer stores)
    (uid : String) (document : Fields) (hu : stores.users uid = some document) :
    CompleteProfile uid document := by
  have hwrites := h.requested request hmem
  rcases serve.document_cases hu with ⟨hcall, -⟩ | ⟨old, fields, hcall, -, hold, rfl⟩ | ⟨hold, -⟩
  · rw [hcall] at hwrites
    obtain ⟨userName, email, rfl⟩ := hwrites
    exact completeProfile_userDocument userName email uid
  · rw [hcall] at hwrites
    obtain ⟨name, email, rfl⟩ := hwrites
    exact (h.stored uid old hold).update name email
  · exact h.stored uid document hold

/-- Whatever document a load is answered with, it is complete. -/
theorem ProfilesComplete.loaded (h : ProfilesComplete w) {device : ℕ} {outcome : Outcome}
    {uid : String} {document : Fields}
    (hload : w.load device outcome uid = some (some (some document))) :
    CompleteProfile uid document := by
  refine of_load hload (fun r hr fields hcall => ?_) (fun r hr fields hcall old hold => ?_)
    (h.stored uid) (h.versions uid)
  · obtain ⟨userName, email, rfl⟩ : ∃ userName email,
        fields = SignupAndLoginVC.userDocument userName email uid := by
      simpa [hcall, Call.WritesProfile] using h.requested r hr
    exact completeProfile_userDocument userName email uid
  · obtain ⟨name, email, rfl⟩ : ∃ name email, fields = UserProfileVC.updateFields name email := by
      simpa [hcall, Call.WritesProfile] using h.requested r hr
    exact hold.update name email

theorem profilesComplete_step (h : ProfilesComplete w) (hs : step normalise w a = some w') :
    ProfilesComplete w' := by
  cases step_effect hs with
  | @tapped e _ reaction tapped =>
    refine ⟨fun r hr => ?_, h.stored, h.versions⟩
    rcases List.mem_append.mp hr with hr | hr
    · exact h.requested r hr
    · exact (tap_userCall (Device.tap_effect tapped) hr).2.writesProfile
  | @appeared e reaction appeared =>
    refine ⟨fun r hr => ?_, h.stored, h.versions⟩
    rcases List.mem_append.mp hr with hr | hr
    · exact h.requested r hr
    · exact (viewDidAppear_userCall appeared hr).2.writesProfile
  | @served before after request outcome answer stores at_i waiting serve =>
    have hmem : request ∈ w.requests := by simp [at_i]
    refine ⟨fun r hr => ?_, h.served hmem serve, fun uid document hd => ?_⟩
    · rcases mem_answered hr with hr | rfl
      · exact h.requested r (at_i ▸ hr)
      · exact h.requested request hmem
    · rcases List.mem_append.mp hd with hd | hd
      · exact h.versions uid document hd
      · exact h.served hmem serve uid document (Option.mem_toList.mp hd)
  | @completed before after request answer at_i answered running =>
    refine ⟨fun r hr => ?_, h.stored, h.versions⟩
    rcases List.mem_append.mp hr with hr | hr
    · exact h.requested r (at_i ▸ remaining_subset hr)
    · rcases made_complete (d := request.device) (Device.complete_effect _ request.issuer
        request.call answer) with ⟨email, password, userName, uid, -, -, hmade⟩ | ⟨hmade, -⟩
      · rw [hmade] at hr
        obtain rfl := List.mem_singleton.mp hr
        exact ⟨userName, email, rfl⟩
      · simp [hmade] at hr
  | signedOut d => exact ⟨h.requested, h.stored, h.versions⟩

/-- With no document stored at the start there is none that is not complete. -/
theorem profilesComplete_initial (session : ℕ → Option String) :
    ProfilesComplete (initial .empty session) :=
  ⟨by simp [initial], by simp [initial, Stores.empty], by simp [initial, Stores.empty]⟩

end AppSystem

end LoopChat
