import LoopChat.TransitionRuns

/-!
# Logs that grow along a run

Each step appends to a log entries that are new to it, sorted among themselves. The order of
the log is then decided by the run: one entry precedes another when it was there first, or
when both came in one step and are sorted that way.
-/
namespace LoopChat.TransitionRuns

variable {σ α κ : Type*} {step : σ → α → Option σ} {s₀ s : σ} {as bs : List α} {a : α}
  {log : σ → List κ} {lt : κ → κ → Prop} {l l' : List κ} {p q : κ}

/-- `l'` is `l` with some sorted entries that are not in `l` at its end. -/
def Grown (lt : κ → κ → Prop) (l l' : List κ) : Prop :=
  ∃ new, l' = l ++ new ∧ new.Pairwise lt ∧ ∀ k ∈ new, k ∉ l

/-- Every step of a run appends to the log. -/
def Grows (step : σ → α → Option σ) (s₀ : σ) (log : σ → List κ) (lt : κ → κ → Prop)
    (as : List α) : Prop :=
  Along step s₀ (fun s a => ∀ t, step s a = some t → Grown lt (log s) (log t)) as

/-- On the run, `p` was in the log before `q` was. -/
def CameFirst (step : σ → α → Option σ) (s₀ : σ) (log : σ → List κ) (as : List α)
    (p q : κ) : Prop :=
  Once step s₀ as fun s => p ∈ log s ∧ q ∉ log s

/-- `p` came before `q`, or at once with it and is sorted before it. -/
def Precedes (step : σ → α → Option σ) (s₀ : σ) (log : σ → List κ) (lt : κ → κ → Prop)
    (as : List α) (p q : κ) : Prop :=
  CameFirst step s₀ log as p q ∨ (¬ CameFirst step s₀ log as q p ∧ lt p q)

theorem Grown.refl (lt : κ → κ → Prop) (l : List κ) : Grown lt l l :=
  ⟨[], by simp, .nil, by simp⟩

theorem Grown.subset (h : Grown lt l l') : l ⊆ l' := by
  obtain ⟨new, rfl, -⟩ := h
  exact List.subset_append_left l new

theorem Grows.subset (hg : Grows step s₀ log lt as) {pre : List α} {t u : σ}
    (hpre : pre <+: as) (ht : Run step s₀ pre t) (hu : Run step s₀ as u) : log t ⊆ log u := by
  induction hu generalizing pre t with
  | nil =>
    obtain rfl := List.prefix_nil.mp hpre
    obtain rfl := run_nil_iff.mp ht
    exact List.Subset.refl _
  | @snoc as s a u prior next ih =>
    rcases List.prefix_concat_iff.mp hpre with rfl | hpre
    · obtain rfl := ht.deterministic (Run.snoc prior next)
      exact List.Subset.refl _
    · have hlast : Grown lt (log s) (log u) := Along.last hg prior u next
      exact List.Subset.trans (ih hg.prior hpre ht) hlast.subset

/-- Of two entries only one came first. -/
theorem CameFirst.asymm (hg : Grows step s₀ log lt as) (h : CameFirst step s₀ log as p q) :
    ¬ CameFirst step s₀ log as q p := by
  rintro ⟨pre', t', hpre', ht', hq', hp'⟩
  obtain ⟨pre, t, hpre, ht, hp, hq⟩ := h
  have hsub : ∀ {b c : List α} {x y : σ}, b <+: c → c <+: as → Run step s₀ b x →
      Run step s₀ c y → log x ⊆ log y := by
    rintro b c x y hbc ⟨d, rfl⟩ hx hy
    exact Grows.subset hg.prior hbc hx hy
  rcases List.prefix_or_prefix_of_prefix hpre hpre' with hle | hle
  · exact hp' (hsub hle hpre' ht ht' hp)
  · exact hq (hsub hle hpre ht' ht hq')

theorem Precedes.asymm (hg : Grows step s₀ log lt as) (hlt : ∀ x y, lt x y → ¬ lt y x)
    (h : Precedes step s₀ log lt as p q) : ¬ Precedes step s₀ log lt as q p := by
  rintro (hfirst' | ⟨hnot', hlt'⟩)
  · rcases h with hfirst | ⟨hnot, -⟩
    · exact hfirst.asymm hg hfirst'
    · exact hnot hfirst'
  · rcases h with hfirst | ⟨-, hlt''⟩
    · exact hnot' hfirst
    · exact hlt p q hlt'' hlt'

/-- An entry that is in the log now did not come first at a later step, unless it already had. -/
theorem cameFirst_snoc (h : Run step s₀ as s) {t : σ} (hs : step s a = some t) (hp : p ∈ log t) :
    CameFirst step s₀ log (as ++ [a]) q p → CameFirst step s₀ log as q p := by
  rintro ⟨pre, u, hpre, hu, hq, hno⟩
  rcases List.prefix_concat_iff.mp hpre with rfl | hpre
  · obtain rfl := hu.deterministic (Run.snoc h hs)
    exact absurd hp hno
  · exact ⟨pre, u, hpre, hu, hq, hno⟩

/-- The log is in the order that the run decides. -/
theorem log_pairwise (h : Run step s₀ as s) (h₀ : log s₀ = [])
    (hg : Grows step s₀ log lt as) : (log s).Pairwise (Precedes step s₀ log lt as) := by
  induction h with
  | nil => simp [h₀]
  | @snoc as s a t prior next ih =>
    have hlast : Grown lt (log s) (log t) := Along.last hg prior t next
    have hmono := hlast.subset
    obtain ⟨new, heq, hsorted, hfresh⟩ := hlast
    have hmem : ∀ k ∈ new, k ∈ log t := fun k hk => heq ▸ List.mem_append_right _ hk
    rw [heq, List.pairwise_append]
    refine ⟨?_, ?_, ?_⟩
    · refine (ih hg.prior).imp_of_mem fun {p q} hp hq hpq => ?_
      rcases hpq with hfirst | ⟨hnot, hlt⟩
      · exact Or.inl (Once.append hfirst [a])
      · exact Or.inr ⟨fun hc => hnot (cameFirst_snoc prior next (hmono hp) hc), hlt⟩
    · -- the entries of one step are new together
      refine hsorted.imp_of_mem fun {p q} hp hq hlt => Or.inr ⟨fun hc => ?_, hlt⟩
      obtain ⟨pre, u, hpre, hu, hqu, -⟩ := cameFirst_snoc prior next (hmem p hp) hc
      exact hfresh q hq (Grows.subset hg.prior hpre hu prior hqu)
    · intro p hp q hq
      exact Or.inl ((Once.now prior ⟨hp, hfresh q hq⟩).append [a])

/-- Two orders of the same entries give the same list exactly when they agree on them. -/
theorem eq_iff_orders_agree {l₁ l₂ : List κ} {r₁ r₂ : κ → κ → Prop} (hp : l₁.Perm l₂)
    (h₁ : l₁.Pairwise r₁) (h₂ : l₂.Pairwise r₂) (ha₁ : ∀ x y, r₁ x y → ¬ r₁ y x)
    (ha₂ : ∀ x y, r₂ x y → ¬ r₂ y x) :
    l₁ = l₂ ↔ ∀ x ∈ l₁, ∀ y ∈ l₁, r₁ x y ↔ r₂ x y := by
  constructor
  · rintro rfl x hx y hy
    have hsymm : Std.Symm fun x y => (r₁ x y ↔ r₂ x y) ∧ (r₁ y x ↔ r₂ y x) :=
      ⟨fun _ _ h => h.symm⟩
    have hboth : l₁.Pairwise fun x y => (r₁ x y ↔ r₂ x y) ∧ (r₁ y x ↔ r₂ y x) :=
      (List.pairwise_and_iff.mpr ⟨h₁, h₂⟩).imp fun {x y} h =>
        ⟨iff_of_true h.1 h.2, iff_of_false (ha₁ x y h.1) (ha₂ x y h.2)⟩
    have hself : ∀ x, ¬ r₁ x x ∧ ¬ r₂ x x := fun x =>
      ⟨fun h => ha₁ x x h h, fun h => ha₂ x x h h⟩
    exact (hboth.forall_of_forall (fun x _ => ⟨iff_of_false (hself x).1 (hself x).2,
      iff_of_false (hself x).1 (hself x).2⟩) hx hy).1
  · intro hagree
    have h₂' : l₂.Pairwise r₁ := h₂.imp_of_mem fun {x y} hx hy hxy =>
      (hagree x (hp.mem_iff.mpr hx) y (hp.mem_iff.mpr hy)).mpr hxy
    exact hp.eq_of_pairwise (fun x y _ _ hxy hyx => absurd hyx (ha₁ x y hxy)) h₁ h₂'

end LoopChat.TransitionRuns
