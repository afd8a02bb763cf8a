import LoopChat.DocumentLedger

/-!
# The lifetime of a stored profile

Three screens on any number of devices write `Users/<uid>`: the sign-up sets the document,
a save changes two of its fields, a deletion removes it. What the readers need holds of every
document in between, and a document that is gone stays gone.
-/
namespace LoopChat
open FirebaseValues

/-- A complete profile is read by the profile screen and by the chat screen. -/
theorem CompleteProfile.shown {uid : String} {document : Fields} (h : CompleteProfile uid document)
    (vc : UserProfileVC) : ∃ vc', vc.getUserDataAnswer uid (some (some document)) = .ok vc' := by
  obtain ⟨user, hu⟩ := h.decodes
  exact ⟨_, UserProfileVC.getUserDataAnswer_eq_ok.mpr ⟨user, hu, rfl⟩⟩

theorem CompleteProfile.named {uid : String} {document : Fields} (h : CompleteProfile uid document)
    (vc : ChatScreentVC) : ∃ vc', vc.userNameAnswer uid (some (some document)) = .ok vc' := by
  obtain ⟨user, hu⟩ := h.decodes
  exact ⟨_, ChatScreentVC.userNameAnswer_eq_ok.mpr ⟨user, hu, rfl⟩⟩

namespace AppSystem
open TransitionRuns

variable {normalise : String → String} {session : ℕ → Option String} {w w' : World} {a : Act}
  {as : List Act} {uid : String}

/-- The label lets the server answer a save of the profile screen. -/
def ServesSave (w : World) (a : Act) : Prop :=
  ∃ i outcome request uid fields, a = .serve i outcome ∧ w.requests[i]? = some request ∧
    request.call = .updateData uid fields

/-- The stores change only when a request is served, and the history records it. -/
theorem step_stores (hs : step normalise w a = some w') :
    (w'.stores = w.stores ∧ w'.served = w.served) ∨
      ∃ i outcome request answer, a = .serve i outcome ∧ w.requests[i]? = some request ∧
        Stores.Effect normalise (w.load request.device outcome) w.stores request.call outcome answer
          w'.stores ∧
        w'.served = w.served ++ [(request.call, answer)] := by
  cases step_effect hs with
  | tapped | appeared | completed | signedOut => exact Or.inl ⟨rfl, rfl⟩
  | @served before after request outcome answer stores at_i waiting serve =>
    exact Or.inr ⟨before.length, outcome, request, answer, rfl, by simp [at_i], serve, rfl⟩

/-- A document appears only where the document of a new user is set. -/
theorem step_document_new (hs : step normalise w a = some w') (hw : w.stores.users uid = none)
    (hw' : w'.stores.users uid ≠ none) : ∃ i outcome request document,
      a = .serve i outcome ∧ w.requests[i]? = some request ∧
        request.call = .setData uid document ∧
        w'.served = w.served ++ [(.setData uid document, .done)] := by
  rcases step_stores hs with ⟨hst, -⟩ | ⟨i, outcome, request, answer, rfl, hi, he, hserved⟩
  · exact absurd (hst ▸ hw) hw'
  · rcases he.document_isSome.mp (Option.isSome_iff_ne_none.mpr hw') with
      ⟨document, hcall, rfl⟩ | ⟨hsome, -⟩
    · exact ⟨i, outcome, request, document, rfl, hi, hcall, hcall ▸ hserved⟩
    · simp [hw] at hsome

theorem step_save_creates_nothing (hs : step normalise w a = some w') (ha : ServesSave w a)
    (hw : w.stores.users uid = none) : w'.stores.users uid = none := by
  by_contra hne
  obtain ⟨i, outcome, request, document, rfl, hi, hcall, -⟩ := step_document_new hs hw hne
  obtain ⟨i', outcome', request', uid', fields, heq, hi', hcall'⟩ := ha
  cases heq
  obtain rfl := Option.some.inj (hi.symm.trans hi')
  simp [hcall] at hcall'

theorem served_prefix_step (hs : step normalise w a = some w') : w.served <+: w'.served := by
  rcases step_stores hs with ⟨-, hserved⟩ | ⟨i, outcome, request, answer, -, -, -, hserved⟩
  · rw [hserved]
  · exact hserved ▸ List.prefix_append _ _

/-- The document of `uid` was there and is not any more. -/
structure Gone (uid : String) (w : World) : Prop where
  ledger : Ledger w
  written : 0 < w.served.countP (stored uid)
  missing : w.stores.users uid = none

/-- The document of a uid is set once, so no step brings it back. -/
theorem gone_step (h : Gone uid w) (hs : step normalise w a = some w') : Gone uid w' := by
  have hledger := ledger_step h.ledger hs
  refine ⟨hledger, ?_, ?_⟩
  · exact h.written.trans_le ((served_prefix_step hs).sublist.countP_le)
  · by_contra hne
    obtain ⟨i, outcome, request, document, -, -, -, hserved⟩ :=
      step_document_new hs h.missing hne
    have hcount : w'.served.countP (stored uid) = w.served.countP (stored uid) + 1 := by
      rw [hserved, List.countP_append, List.countP_singleton,
        if_pos (stored_eq_true.mpr ⟨document, rfl⟩)]
    have hwrites := hledger.written uid
    have hpos := h.written
    unfold World.writes at hwrites
    split_ifs at hwrites <;> omega

/-- What existed once and is missing later is gone. -/
theorem gone_of_existed {pre mid : List Act} {s t : World}
    (hpre : Run (step normalise) (initial .empty session) pre s)
    (hmid : Run (step normalise) s mid t) (hs : s.stores.users uid ≠ none)
    (ht : t.stores.users uid = none) : Gone uid t := by
  have hledger := ledger_run hpre
  have hstored := hledger.document uid (Option.isSome_iff_ne_none.mpr hs)
  have hboth : Ledger t ∧ 0 < t.served.countP (stored uid) :=
    hmid.invariant (I := fun u => Ledger u ∧ 0 < u.served.countP (stored uid))
      ⟨hledger, hstored⟩ fun hI hstep =>
        ⟨ledger_step hI.1 hstep, hI.2.trans_le (served_prefix_step hstep).sublist.countP_le⟩
  exact ⟨hboth.1, hboth.2, ht⟩

/-- Every stored profile can be read by both screens, no save creates one, and one that was
deleted never exists again. -/
theorem profiles_complete_until_deleted
    (h : Run (step normalise) (initial .empty session) as w) :
    (∀ uid document, w.stores.users uid = some document → CompleteProfile uid document ∧
      (∀ vc : UserProfileVC, ∃ vc', vc.getUserDataAnswer uid (some (some document)) = .ok vc') ∧
      ∀ vc : ChatScreentVC, ∃ vc', vc.userNameAnswer uid (some (some document)) = .ok vc') ∧
    (Along (step normalise) (initial .empty session) (fun s a => ServesSave s a →
      ∀ t, step normalise s a = some t → ∀ uid, s.stores.users uid = none →
        t.stores.users uid = none) as) ∧
    ∀ pre mid post s t uid, as = pre ++ mid ++ post →
      Run (step normalise) (initial .empty session) pre s → Run (step normalise) s mid t →
        s.stores.users uid ≠ none → t.stores.users uid = none → w.stores.users uid = none := by
  refine ⟨fun uid document hd => ?_, ?_, ?_⟩
  · have hcomplete : ProfilesComplete w :=
      h.invariant (profilesComplete_initial session) fun hI hs => profilesComplete_step hI hs
    have hdoc := hcomplete.stored uid document hd
    exact ⟨hdoc, hdoc.shown, hdoc.named⟩
  · rintro pre a post s - - ha t hs uid hnone
    exact step_save_creates_nothing hs ha hnone
  · rintro pre mid post s t uid rfl hpre hmid hs ht
    have hpost : Run (step normalise) t post w := by
      rw [List.append_assoc] at h
      exact (h.rest hpre).rest hmid
    exact (hpost.invariant (I := Gone uid) (gone_of_existed hpre hmid hs ht)
      fun hI hstep => gone_step hI hstep).missing

/-- The user signs in on a second device and saves the profile there; the deletion that the first
device asks for takes effect before the save. -/
def deletion : List Act :=
  [.viewDidAppear 1, .tap 1 (.loginButtonAction "e" "p"), .serve 0 (.user "u"), .complete 0,
    .viewDidAppear 1, .tap 1 .showSettings, .viewDidAppear 1, .tap 1 .showProfile,
    .viewDidAppear 1, .serve 0 .done, .complete 0, .tap 1 .updateUserInfo] ++ openProfile ++
    [.serve 2 .done, .complete 2, .tap 0 .deleteUserAccount, .tap 0 .yes, .serve 2 .done]

theorem late_save_keeps_deleted : ∃ w,
    Run (step id) firstLaunch (signUp ++ deletion ++ [.serve 0 .failed]) w ∧
      w.stores.users "u" = none := by
  have hstart : (exec (step id) firstLaunch signUp).map (fun w => (w.stores.users "u").isSome) =
      some true := rfl
  have hgone : (exec (step id) firstLaunch (signUp ++ deletion)).map
      (fun w => (w.stores.users "u").isSome) = some false := rfl
  obtain ⟨w, hw⟩ : ∃ w, exec (step id) firstLaunch (signUp ++ deletion ++ [.serve 0 .failed]) =
      some w := Option.isSome_iff_exists.mp rfl
  obtain ⟨s, hs, hsome⟩ := run_of_exec_map hstart
  obtain ⟨t, ht, hnone⟩ := run_of_exec_map hgone
  exact ⟨w, run_iff_exec.mpr hw, (profiles_complete_until_deleted (run_iff_exec.mpr hw)).2.2
    signUp deletion [.serve 0 .failed] s t "u" rfl hs (ht.rest hs)
    (by simpa [Option.isSome_iff_ne_none] using hsome) (by simpa using hnone)⟩

end AppSystem

end LoopChat
