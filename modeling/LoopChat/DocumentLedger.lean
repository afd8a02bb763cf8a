import LoopChat.StoredProfiles

/-!
# The write of a new user's document

A sign-up asks Auth first and writes the document in its completion handler. So each uid has
its document written once: the write is to be made, on its way, or in the history.
-/
namespace LoopChat
open FirebaseValues NavigationWindow

namespace AppSystem
open TransitionRuns

/-- An answer to the write of a new user's document. -/
def stored (uid : String) (entry : Call × Answer) : Bool :=
  match entry.1 with
  | .setData u _ => u == uid
  | _ => false

variable {served : List (Call × Answer)} {entry : Call × Answer} {uid : String}

theorem stored_eq_true : stored uid entry = true ↔ ∃ document, entry.1 = .setData uid document := by
  obtain ⟨call, answer⟩ := entry
  cases call <;> simp [stored]

/-- An account was created and the handler that writes its document is still to run. -/
def creating (uid : String) (r : Request) : Bool :=
  match r.call, r.answer with
  | .createUser _ _ _, some (.user u) => u == uid
  | _, _ => false

/-- The write of a new user's document is on its way. -/
def storing (uid : String) (r : Request) : Bool :=
  r.answer.isNone && stored uid (r.call, .done)

/-- The writes of the document of `uid`: to be made, on their way, and answered. -/
def World.writes (w : World) (uid : String) : ℕ :=
  w.requests.countP (creating uid) + w.requests.countP (storing uid) +
    w.served.countP (stored uid)

/-- The document of `uid` is still to be written by the sign-up. -/
def Unwritten (requests : List Request) (uid : String) : Prop :=
  ∃ r ∈ requests, creating uid r = true ∨ storing uid r = true

/-- The books of the writes: each uid handed out has one, each document had it. -/
structure Ledger (w : World) : Prop where
  document : ∀ uid, (w.stores.users uid).isSome → 0 < w.served.countP (stored uid)
  written : ∀ uid, w.writes uid = if uid ∈ w.stores.issued then 1 else 0

variable {normalise : String → String} {load : String → Option (Option Snapshot)}
  {session : ℕ → Option String} {w w' : World} {a : Act} {as : List Act} {stores : Stores}
  {call : Call} {answer : Answer} {outcome : Outcome}

theorem Ledger.countP_le (h : Ledger w) (uid : String) :
    w.requests.countP (creating uid) + w.requests.countP (storing uid) +
      w.served.countP (stored uid) ≤ 1 := by
  have hwritten := h.written uid
  unfold World.writes at hwritten
  rw [hwritten]
  split_ifs <;> omega

theorem unwritten_iff {requests : List Request} : Unwritten requests uid ↔
    0 < requests.countP (creating uid) + requests.countP (storing uid) := by
  simp only [Unwritten, and_or_left, exists_or, Nat.add_pos_iff_pos_or_pos, List.countP_pos_iff]

/-- What was written once is not still to be written. -/
theorem Ledger.not_unwritten (h : Ledger w) (hstored : 0 < w.served.countP (stored uid)) :
    ¬ Unwritten w.requests uid := by
  intro hun
  have hpos := unwritten_iff.mp hun
  have hle := h.countP_le uid
  omega

theorem Ledger.issued_of_unwritten (h : Ledger w) (hun : Unwritten w.requests uid) :
    uid ∈ w.stores.issued := by
  by_contra hno
  have hpos := unwritten_iff.mp hun
  have hwritten := h.written uid
  rw [if_neg hno, World.writes] at hwritten
  omega

theorem Ledger.issued_of_stored (h : Ledger w) (hpos : 0 < w.served.countP (stored uid)) :
    uid ∈ w.stores.issued := by
  by_contra hno
  have hwritten := h.written uid
  rw [if_neg hno, World.writes] at hwritten
  omega

/-- A request that is served moves its write into the history, and a sign-up that succeeds
leaves one to be made. -/
theorem writes_served (uid : String) {before after : List Request} {request : Request}
    (waiting : request.answer = none) (answer : Answer) :
    (before ++ { request with answer := some answer } :: after).countP (creating uid) +
      (before ++ { request with answer := some answer } :: after).countP (storing uid) +
      (served ++ [(request.call, answer)]).countP (stored uid) =
    (before ++ request :: after).countP (creating uid) +
      (before ++ request :: after).countP (storing uid) + served.countP (stored uid) +
      (if creating uid { request with answer := some answer } then 1 else 0) := by
  have hcreating : creating uid request = false := by simp [creating, waiting]
  have hstoring : storing uid { request with answer := some answer } = false := by simp [storing]
  have hstored : storing uid request = stored uid (request.call, answer) := by
    simp only [storing, waiting, Option.isNone_none, Bool.true_and, stored]
  simp only [List.countP_append, List.countP_cons, List.countP_nil, hcreating, hstoring, hstored]
  simp only [Bool.false_eq_true, if_false]
  omega

theorem ledger_served (h : Ledger w) {before after : List Request} {request : Request}
    (at_i : w.requests = before ++ request :: after) (waiting : request.answer = none)
    (serve : Stores.Effect normalise load w.stores request.call outcome answer stores)
    (devices : ℕ → Device) (versions : String → List Fields) : Ledger { w with
      stores := stores
      devices := devices
      requests := before ++ { request with answer := some answer } :: after
      served := w.served ++ [(request.call, answer)]
      versions := versions } where
  document := by
    intro uid hd
    rw [List.countP_append]
    rcases serve.document_isSome.mp hd with ⟨document, hcall, rfl⟩ | ⟨hold, -⟩
    · refine Nat.add_pos_right _ (List.countP_pos_iff.mpr ⟨_, List.mem_singleton_self _, ?_⟩)
      exact stored_eq_true.mpr ⟨document, hcall⟩
    · exact Nat.add_pos_left (h.document uid hold) _
  written := by
    intro uid
    have hcount := h.written uid
    have hcreates : creating uid { request with answer := some answer } = true ↔
        Stores.Creates request.call answer uid := by
      unfold creating Stores.Creates
      cases request.call <;> cases answer <;> simp
    unfold World.writes at hcount ⊢
    rw [at_i] at hcount
    rw [writes_served uid waiting answer, hcount]
    by_cases hc : Stores.Creates request.call answer uid
    · rw [if_pos (hcreates.mpr hc), if_neg (serve.fresh hc),
        if_pos (serve.issued.mpr (Or.inr hc))]
    · rw [if_neg fun hb => hc (hcreates.mp hb), Nat.add_zero]
      exact if_congr (by simp [serve.issued, hc]) rfl rfl

/-- Steps that neither answer nor lose a write leave the ledger as it is. -/
theorem Ledger.of_requests {w' : World} (h : Ledger w) (hst : w'.stores = w.stores)
    (hserved : w'.served = w.served) (hw : ∀ uid, w'.writes uid = w.writes uid) : Ledger w' where
  document := by rw [hst, hserved]; exact h.document
  written := by
    intro uid
    rw [hw, hst]
    exact h.written uid

/-- No tap and no appearance writes a new document. -/
theorem not_unwritten_of_userCall {new : List Request}
    (hnew : ∀ r ∈ new, r.answer = none ∧ UserCall r.call) (uid : String) : ¬ Unwritten new uid := by
  rintro ⟨r, hr, hcreating | hstoring⟩
  · simp [creating, (hnew r hr).1] at hcreating
  · have hcall := (hnew r hr).2
    generalize hc : r.call = call at hcall
    cases hcall <;> simp [storing, stored, hc] at hstoring

theorem writes_append {requests new : List Request} (hnew : ∀ r ∈ new, r.answer = none ∧
    UserCall r.call) (uid : String) :
    (requests ++ new).countP (creating uid) = requests.countP (creating uid) ∧
      (requests ++ new).countP (storing uid) = requests.countP (storing uid) := by
  have hnone := mt unwritten_iff.mpr (not_unwritten_of_userCall hnew uid)
  rw [List.countP_append, List.countP_append]
  omega

theorem ledger_step (h : Ledger w) (hs : step normalise w a = some w') : Ledger w' := by
  cases step_effect hs with
  | @tapped d _ reaction tapped =>
    refine h.of_requests rfl rfl fun uid => ?_
    obtain ⟨hc, hst⟩ := @writes_append w.requests (made w.reactions d reaction)
      (fun r hr => tap_userCall (Device.tap_effect tapped) hr) uid
    simp only [World.writes, World.follow, hc, hst]
  | @appeared d reaction appeared =>
    refine h.of_requests rfl rfl fun uid => ?_
    obtain ⟨hc, hst⟩ := @writes_append w.requests (made w.reactions d reaction)
      (fun r hr => viewDidAppear_userCall appeared hr) uid
    simp only [World.writes, World.follow, hc, hst]
  | served at_i waiting serve => exact ledger_served h at_i waiting serve _ _
  | @completed before after request answer at_i answered running =>
    refine h.of_requests rfl rfl fun uid => ?_
    have hstoring : storing uid request = false := by simp [storing, answered]
    rcases made_complete (n := w.reactions) (d := request.device) (Device.complete_effect
      (w.devices request.device) request.issuer request.call answer) with
      ⟨email, password, userName, u, hcall, rfl, hmade⟩ | ⟨hmade, hno⟩
    · -- the sign-up is handed over from its completion to the write of the document
      have hcreating : creating uid request = (u == uid) := by simp [creating, hcall, answered]
      simp only [World.writes, World.follow, at_i, hmade, List.countP_append, List.countP_cons,
        List.countP_nil, hcreating, hstoring]
      simp only [creating, storing, stored, Option.isNone_none, Bool.true_and, Bool.false_eq_true,
        if_false]
      omega
    · have hcreating : creating uid request = false := by
        unfold creating
        rw [answered]
        split
        · rename_i email password userName u hcall ha
          exact absurd ⟨hcall, Option.some.inj ha⟩ (hno email password userName u)
        · rfl
      simp only [World.writes, World.follow, at_i, hmade, List.append_nil, List.countP_append,
        List.countP_cons, hcreating, hstoring]
      simp
  | signedOut d => exact h.of_requests rfl rfl fun uid => rfl

theorem ledger_initial (session : ℕ → Option String) : Ledger (initial .empty session) where
  document := by simp [initial, Stores.empty]
  written := by simp [initial, Stores.empty, World.writes]

theorem ledger_run (h : Run (step normalise) (initial .empty session) as w) : Ledger w :=
  h.invariant (ledger_initial session) fun hI hs => ledger_step hI hs

end AppSystem

end LoopChat
