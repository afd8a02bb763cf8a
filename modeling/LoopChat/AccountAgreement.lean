import LoopChat.PairedRequests

/-!
# Accounts and profiles

A sign-up writes the document of an account only after Auth has created it; a deletion sends
both of its requests at once, and nothing makes up for the one that fails.
-/
namespace LoopChat
open FirebaseValues NavigationWindow

/-- A uid has an account exactly when it has a document. -/
def Stores.Agree (st : Stores) : Prop :=
  ∀ uid, (st.accounts uid).isSome ↔ (st.users uid).isSome

namespace AppSystem
open TransitionRuns

/-- The document of a new user is taken, the two requests of a deletion are answered alike, and
a document is deleted only after it was written. -/
def DeletedAlike (accept : ℕ → Bool) (w : World) (request : Request) (outcome : Outcome) : Prop :=
  match request.call with
  | .setData _ _ => outcome = .done
  | .deleteUser _ => AnsweredAlike accept w request outcome
  | .deleteDocument uid => AnsweredAlike accept w request outcome ∧
    (outcome = .done → ∃ document, (.setData uid document, .done) ∈ w.served)
  | _ => True

/-- No app has crashed between the answer to its sign-up and the handler. -/
def World.SignUpsHandled (w : World) : Prop :=
  ∀ r ∈ w.requests, ∀ uid, creating uid r = true → (w.devices r.device).trapped = none

/-- The condition on a step: what a served request is answered. -/
def Answers (C : World → Request → Outcome → Prop) (w : World) : Act → Prop
  | .serve i outcome => ∀ request, w.requests[i]? = some request → C w request outcome
  | _ => True

def DeletionGranted (accept : ℕ → Bool) (requests : List Request) (call : Call) : Prop :=
  ∃ r ∈ requests, r.Granted accept ∧ r.call = call

/-- The stores as they are going to be agree: of what is there or to be written, what a granted
request deletes is taken away. -/
structure Balanced (accept : ℕ → Bool) (st : Stores) (requests : List Request) (uid : String) :
    Prop where
  agree : (st.accounts uid).isSome ∧ ¬ DeletionGranted accept requests (.deleteUser uid) ↔
    ((st.users uid).isSome ∨ Unwritten requests uid) ∧
      ¬ DeletionGranted accept requests (.deleteDocument uid)
  alike : uid ∉ st.issued → (DeletionGranted accept requests (.deleteUser uid) ↔
    DeletionGranted accept requests (.deleteDocument uid))

variable {normalise : String → String} {session : ℕ → Option String} {accept : ℕ → Bool}
  {w w' : World} {a : Act} {as : List Act} {uid : String} {requests before after new : List Request}
  {request : Request} {answer : Answer} {outcome : Outcome} {st stores : Stores} {call : Call}
  {load : String → Option (Option Snapshot)}

theorem deletionGranted_append : DeletionGranted accept (before ++ after) call ↔
    DeletionGranted accept before call ∨ DeletionGranted accept after call := by
  simp only [DeletionGranted, List.mem_append, or_and_right, exists_or]

theorem deletionGranted_waiting (waiting : request.answer = none) :
    DeletionGranted accept (before ++ request :: after) call ↔
      (request.call = call ∧ accept request.reaction = true) ∨
        DeletionGranted accept (before ++ after) call := by
  unfold DeletionGranted
  rw [exists_append_cons]
  simp only [Request.Granted, waiting, true_and, and_comm]

theorem deletionGranted_answered (answered : request.answer = some answer) :
    DeletionGranted accept (before ++ request :: after) call ↔
      DeletionGranted accept (before ++ after) call := by
  unfold DeletionGranted
  rw [exists_append_cons]
  simp [Request.Granted, answered]

/-- Requests that delete both or neither, and write nothing, keep the balance. -/
theorem Balanced.append (h : Balanced accept st requests uid)
    (hpair : DeletionGranted accept new (.deleteUser uid) ↔
      DeletionGranted accept new (.deleteDocument uid)) (hun : ¬ Unwritten new uid) :
    Balanced accept st (requests ++ new) uid where
  agree := by
    rw [deletionGranted_append, deletionGranted_append, unwritten_append, hpair, or_iff_left hun]
    by_cases hnew : DeletionGranted accept new (.deleteDocument uid)
    · simp only [hnew, or_true, not_true_eq_false, and_false]
    · simpa only [hnew, or_false] using h.agree
  alike := by
    intro hu
    rw [deletionGranted_append, deletionGranted_append, hpair, h.alike hu]

/-- A request that settles nothing about the uid, or creates its account, keeps the balance. -/
theorem Balanced.served_other (h : Balanced accept w.stores w.requests uid)
    (at_i : w.requests = before ++ request :: after) (waiting : request.answer = none)
    (serve : Stores.Effect normalise load w.stores request.call outcome answer stores)
    (huser : request.call ≠ .deleteUser uid) (hdocument : request.call ≠ .deleteDocument uid)
    (hset : ∀ document, request.call ≠ .setData uid document) :
    Balanced accept stores (before ++ { request with answer := some answer } :: after) uid := by
  obtain ⟨hagree, halike⟩ := h
  rw [at_i, deletionGranted_waiting waiting, deletionGranted_waiting waiting] at hagree halike
  rw [unwritten_waiting waiting] at hagree
  constructor
  · rw [deletionGranted_answered rfl, deletionGranted_answered rfl, serve.account_isSome,
      serve.document_isSome, unwritten_served]
    simp only [huser, hdocument, hset, false_and, false_or, exists_false, not_false_eq_true,
      and_true] at hagree halike ⊢
    by_cases hcreates : Stores.Creates request.call answer uid
    · -- the account is new, and its document is to be written
      simp only [hcreates, or_true, true_or, true_and, halike (serve.fresh hcreates)]
    · simpa only [hcreates, or_false, false_or] using hagree
  · intro hu
    rw [serve.issued, not_or] at hu
    rw [deletionGranted_answered rfl, deletionGranted_answered rfl]
    simpa only [huser, hdocument, false_and, false_or] using halike hu.1

theorem Balanced.served_deleteUser (h : Balanced accept w.stores w.requests uid)
    (at_i : w.requests = before ++ request :: after) (waiting : request.answer = none)
    (hcall : request.call = .deleteUser uid) (hC : AnsweredAlike accept w request outcome)
    (serve : Stores.Effect normalise load w.stores request.call outcome answer stores) :
    Balanced accept stores (before ++ { request with answer := some answer } :: after) uid := by
  have hdone := paired_answer serve (by rw [hcall]; rfl)
  have hissued : answer = .done → uid ∈ w.stores.issued := by
    rintro rfl
    exact (hcall ▸ serve).deletes_issued
  obtain ⟨hagree, halike⟩ := h
  rw [at_i, deletionGranted_waiting waiting, deletionGranted_waiting waiting] at hagree halike
  rw [unwritten_waiting waiting] at hagree
  rw [AnsweredAlike, hcall] at hC
  constructor
  · rw [deletionGranted_answered rfl, deletionGranted_answered rfl, serve.account_isSome,
      serve.document_isSome, unwritten_served]
    simp only [Stores.Creates, hcall, reduceCtorEq, false_and, exists_false, or_false, false_or,
      true_and] at hagree ⊢
    rcases hC with ⟨-, hnone⟩ | hsame
    · -- there is no account to delete any more
      simpa [hnone] using hagree
    · by_cases hacc : accept request.reaction = true
      · simpa [hdone, hsame, hacc] using hagree
      · simpa [hdone, hsame, hacc] using hagree
  · intro hu
    rw [serve.issued, not_or] at hu
    rw [deletionGranted_answered rfl, deletionGranted_answered rfl]
    have hrefused : accept request.reaction ≠ true := by
      rcases hC with ⟨hin, -⟩ | hsame
      · exact absurd hin hu.1
      · exact fun hacc => hu.1 (hissued (hdone.mpr (hsame.mpr hacc)))
    simpa [hcall, hrefused] using halike hu.1

theorem Balanced.served_deleteDocument (h : Balanced accept w.stores w.requests uid)
    (hl : Ledger w) (at_i : w.requests = before ++ request :: after)
    (waiting : request.answer = none) (hcall : request.call = .deleteDocument uid)
    (hC : AnsweredAlike accept w request outcome)
    (hwritten : outcome = .done → 0 < w.served.countP (stored uid))
    (serve : Stores.Effect normalise load w.stores request.call outcome answer stores) :
    Balanced accept stores (before ++ { request with answer := some answer } :: after) uid := by
  have hdone := paired_answer serve (by rw [hcall]; rfl)
  have hrest : Unwritten (before ++ request :: after) uid ↔ _ := unwritten_waiting waiting
  simp only [hcall, reduceCtorEq, exists_false, false_or] at hrest
  obtain ⟨hagree, halike⟩ := h
  rw [at_i, deletionGranted_waiting waiting, deletionGranted_waiting waiting] at hagree halike
  rw [AnsweredAlike, hcall] at hC
  constructor
  · rw [deletionGranted_answered rfl, deletionGranted_answered rfl, serve.account_isSome,
      serve.document_isSome, unwritten_served]
    simp only [Stores.Creates, hcall, reduceCtorEq, false_and, exists_false, or_false, false_or,
      true_and, and_true, not_false_eq_true, hrest] at hagree ⊢
    rcases hC with ⟨-, hnone, hun⟩ | hsame
    · -- there is no document to delete any more
      rw [at_i, hrest] at hun
      simpa [hnone, hun] using hagree
    · by_cases hacc : accept request.reaction = true
      · have hun : ¬ Unwritten (before ++ after) uid := by
          rw [← hrest, ← at_i]
          exact hl.not_unwritten (hwritten (hsame.mpr hacc))
        simpa [hdone, hsame, hacc, hun] using hagree
      · simpa [hdone, hsame, hacc] using hagree
  · intro hu
    rw [serve.issued, not_or] at hu
    rw [deletionGranted_answered rfl, deletionGranted_answered rfl]
    have hrefused : accept request.reaction ≠ true := by
      rcases hC with ⟨hin, -⟩ | hsame
      · exact absurd hin hu.1
      · exact fun hacc => hu.1 (hl.issued_of_stored (hwritten (hsame.mpr hacc)))
    simpa [hcall, hrefused] using halike hu.1

theorem Balanced.served_setData (h : Balanced accept w.stores w.requests uid)
    (at_i : w.requests = before ++ request :: after) (waiting : request.answer = none)
    {document : FirebaseValues.Fields} (hcall : request.call = .setData uid document)
    (serve : Stores.Effect normalise load w.stores request.call .done answer stores) :
    Balanced accept stores (before ++ { request with answer := some answer } :: after) uid := by
  have hdone : answer = .done := by
    rw [hcall] at serve
    cases serve
    rfl
  obtain ⟨hagree, halike⟩ := h
  rw [at_i, deletionGranted_waiting waiting, deletionGranted_waiting waiting] at hagree halike
  rw [unwritten_waiting waiting] at hagree
  constructor
  · rw [deletionGranted_answered rfl, deletionGranted_answered rfl, serve.account_isSome,
      serve.document_isSome]
    simpa [Stores.Creates, hcall, hdone] using hagree
  · intro hu
    rw [serve.issued, not_or] at hu
    rw [deletionGranted_answered rfl, deletionGranted_answered rfl]
    simpa [hcall] using halike hu.1

theorem Balanced.served (h : Balanced accept w.stores w.requests uid) (hl : Ledger w)
    (at_i : w.requests = before ++ request :: after) (waiting : request.answer = none)
    (hC : DeletedAlike accept w request outcome)
    (serve : Stores.Effect normalise load w.stores request.call outcome answer stores) :
    Balanced accept stores (before ++ { request with answer := some answer } :: after) uid := by
  unfold DeletedAlike at hC
  by_cases huser : request.call = .deleteUser uid
  · rw [huser] at hC
    exact h.served_deleteUser at_i waiting huser hC serve
  by_cases hdocument : request.call = .deleteDocument uid
  · rw [hdocument] at hC
    refine h.served_deleteDocument hl at_i waiting hdocument hC.1 (fun hdone => ?_) serve
    obtain ⟨document, hmem⟩ := hC.2 hdone
    exact List.countP_pos_iff.mpr ⟨_, hmem, stored_eq_true.mpr ⟨document, rfl⟩⟩
  by_cases hset : ∃ document, request.call = .setData uid document
  · obtain ⟨document, hcall⟩ := hset
    rw [hcall] at hC
    obtain rfl : outcome = .done := hC
    exact h.served_setData at_i waiting hcall serve
  exact h.served_other at_i waiting serve huser hdocument (not_exists.mp hset)

theorem not_granted_of_unpaired (hnew : ∀ r ∈ new, r.call.paired = false)
    (hcall : call.paired = true) : ¬ DeletionGranted accept new call := by
  rintro ⟨r, hr, -, rfl⟩
  simp [hnew r hr] at hcall

/-- A tap requests both deletions or none. -/
theorem deletions_of_tap {n d : ℕ} {dev : Device} {t : Tap} {reaction : Reaction}
    (ht : Device.TapEffect dev t reaction) :
    DeletionGranted accept (made n d reaction) (.deleteUser uid) ↔
      DeletionGranted accept (made n d reaction) (.deleteDocument uid) := by
  rcases made_tap_pairs (n := n) (d := d) ht with ⟨u, name, email, hmade⟩ | ⟨u, hmade⟩ | hno
  · simp [hmade, DeletionGranted]
  · simp [hmade, DeletionGranted, Request.Granted]
  · exact iff_of_false (not_granted_of_unpaired hno rfl) (not_granted_of_unpaired hno rfl)

theorem balanced_step (h : Balanced accept w.stores w.requests uid) (hl : Ledger w)
    (hC : Answers (DeletedAlike accept) w a) (hs : step normalise w a = some w') :
    Balanced accept w'.stores w'.requests uid := by
  cases step_effect hs with
  | tapped tapped =>
    have heffect := Device.tap_effect tapped
    exact h.append (deletions_of_tap heffect)
      (not_unwritten_of_userCall (fun r hr => tap_userCall heffect hr) uid)
  | appeared appeared =>
    exact h.append (iff_of_false (not_granted_of_unpaired (unpaired_of_appearance appeared) rfl)
        (not_granted_of_unpaired (unpaired_of_appearance appeared) rfl))
      (not_unwritten_of_userCall (fun r hr => viewDidAppear_userCall appeared hr) uid)
  | served at_i waiting serve =>
    exact h.served hl at_i waiting (hC _ (by simp [at_i])) serve
  | @completed before after request answer at_i answered running =>
    obtain ⟨hagree, halike⟩ := h
    have hcomplete := Device.complete_effect (w.devices request.device) request.issuer
      request.call answer
    have hgranted : ∀ call : Call, call.paired = true →
        (DeletionGranted accept (before ++ after ++ made w.reactions request.device
          ((w.devices request.device).complete request.issuer request.call answer)) call ↔
        DeletionGranted accept w.requests call) := by
      intro call hcall
      rw [at_i, deletionGranted_answered answered, deletionGranted_append]
      exact or_iff_left (not_granted_of_unpaired (unpaired_of_complete hcomplete) hcall)
    constructor
    · rw [← hgranted _ rfl, ← hgranted _ rfl, at_i, ← unwritten_completed answered hcomplete]
        at hagree
      exact hagree
    · rwa [← hgranted _ rfl, ← hgranted _ rfl] at halike
  | signedOut d => exact h

/-- Nothing granted and nothing to be written is left once no request is outstanding. -/
theorem Balanced.agree_of_quiet (h : Balanced accept w.stores w.requests uid) (quiet : w.Quiet)
    (handled : w.SignUpsHandled) :
    (w.stores.accounts uid).isSome ↔ (w.stores.users uid).isSome := by
  have hgranted : ∀ call, ¬ DeletionGranted accept w.requests call := by
    rintro call ⟨r, hr, ⟨hwaiting, -⟩, -⟩
    exact (quiet r hr).1 hwaiting
  have hun : ¬ Unwritten w.requests uid := by
    rintro ⟨r, hr, hcreating | hstoring⟩
    · exact (quiet r hr).2 (handled r hr uid hcreating)
    · rw [storing, Bool.and_eq_true, Option.isNone_iff_eq_none] at hstoring
      exact (quiet r hr).1 hstoring.1
  simpa [hgranted, hun] using h.agree

/-- In a run in which the documents of new users are taken and the two requests of each deletion
are answered alike, accounts and documents agree whenever no request is outstanding. -/
theorem accounts_agree (accept : ℕ → Bool) (h : Run (step normalise) (initial .empty session) as w)
    (hC : Along (step normalise) (initial .empty session) (Answers (DeletedAlike accept)) as)
    (quiet : w.Quiet) (handled : w.SignUpsHandled) : w.stores.Agree := by
  have hboth : Ledger w ∧ ∀ uid, Balanced accept w.stores w.requests uid := by
    refine h.invariant_along (I := fun w => Ledger w ∧
      ∀ uid, Balanced accept w.stores w.requests uid) hC ?_ ?_
    · exact ⟨ledger_initial session, fun uid =>
        ⟨by simp [initial, Stores.empty, Unwritten], by simp [initial, DeletionGranted]⟩⟩
    · rintro t a u ⟨hl, hb⟩ hCa hs
      exact ⟨ledger_step hl hs, fun uid => balanced_step (hb uid) hl hCa hs⟩
  exact fun uid => (hboth.2 uid).agree_of_quiet quiet handled

/-- A check of the condition on answers that leaves out requests that find nothing to change. -/
def checkDeletions (accept : ℕ → Bool) (w : World) : Act → Bool
  | .serve i outcome => (w.requests[i]?).all fun request =>
    match request.call with
    | .setData _ _ => outcome == .done
    | .deleteUser _ => (outcome == .done) == accept request.reaction
    | .deleteDocument uid => ((outcome == .done) == accept request.reaction) &&
      (outcome != .done || w.served.any fun entry =>
        match entry with
        | (.setData u _, .done) => u == uid
        | _ => false)
    | _ => true
  | _ => true

theorem answers_of_checkDeletions (h : checkDeletions accept w a = true) :
    Answers (DeletedAlike accept) w a := by
  cases a with
  | serve i outcome =>
    intro request hi
    rw [checkDeletions, hi, Option.all_some] at h
    have hsame : ((outcome == .done) == accept request.reaction) = true →
        AnsweredAlike accept w request outcome := fun hb =>
      Or.inr (by rw [← beq_iff_eq.mp hb, beq_iff_eq])
    unfold DeletedAlike
    split at h
    · exact beq_iff_eq.mp h
    · exact hsame h
    · rw [Bool.and_eq_true, Bool.or_eq_true, bne_iff_ne] at h
      refine ⟨hsame h.1, fun hdone => ?_⟩
      obtain ⟨entry, hmem, hentry⟩ := List.any_eq_true.mp (h.2.resolve_left (not_not.mpr hdone))
      split at hentry
      · exact ⟨_, beq_iff_eq.mp hentry ▸ hmem⟩
      · cases hentry
    · trivial
  | _ => trivial

/-- Two users ask to be deleted; both stores take the deletion of the one and refuse that of
the other. -/
def twoDeletions : List Act :=
  signUp ++ openProfile ++ [.serve 0 .done, .complete 0, .viewDidAppear 1,
    .tap 1 (.signupButtonAction "f" "p" "p" "m"), .serve 0 (.user "v"), .complete 0,
    .serve 0 .done, .complete 0, .viewDidAppear 1, .tap 1 .showSettings, .viewDidAppear 1,
    .tap 1 .showProfile, .viewDidAppear 1, .serve 0 .done, .complete 0,
    .tap 0 .deleteUserAccount, .tap 1 .deleteUserAccount, .tap 0 .yes, .tap 1 .yes,
    .serve 3 .failed, .serve 1 .done, .serve 2 .failed, .serve 0 .done,
    .complete 0, .complete 0, .complete 0, .complete 0]

theorem twoDeletions_accounts_agree :
    ∃ w, Run (step id) firstLaunch twoDeletions w ∧ w.stores.Agree := by
  have hend : (exec (step id) firstLaunch twoDeletions).map (fun w => w.requests.length) =
      some 0 := rfl
  obtain ⟨w, hw, hreq⟩ := run_of_exec_map hend
  have hnil := List.length_eq_zero_iff.mp hreq
  refine ⟨w, hw, accounts_agree (fun reaction => reaction == 22) hw ?_ ?_ ?_⟩
  · exact along_of_check (fun _ _ => answers_of_checkDeletions) rfl
  · simp [World.Quiet, hnil]
  · simp [World.SignUpsHandled, hnil]

/-- Auth refuses to delete the account, for want of a recent login, after the document is gone. -/
def refusedDeletion : List Act :=
  signUp ++ openProfile ++ [.serve 0 .done, .complete 0, .tap 0 .deleteUserAccount, .tap 0 .yes,
    .serve 0 .done, .serve 1 .failed, .complete 0, .complete 0]

theorem refusedDeletion_disagrees : ¬ ∀ normalise session as w,
    Run (step normalise) (initial .empty session) as w → w.Quiet → w.stores.Agree := by
  intro hall
  have hend : (exec (step id) firstLaunch refusedDeletion).map (fun w =>
      (w.requests.length, w.stores.accounts "u", (w.stores.users "u").isSome)) =
      some (0, some "e", false) := rfl
  obtain ⟨w, hw, heq⟩ := run_of_exec_map hend
  obtain ⟨hreq, haccount, huser⟩ := by simpa only [Prod.mk.injEq] using heq
  have hagree := hall id _ refusedDeletion w hw
    (by simp [World.Quiet, List.length_eq_zero_iff.mp hreq]) "u"
  simp [haccount, huser] at hagree

end AppSystem

end LoopChat
