import Mathlib

/-!
# Runs of labelled transition systems

A system is a partial step function: all nondeterminism sits in the labels, and a
label that is not enabled in a state has no successor there. Runs grow at the end,
so an invariant of a run is an induction on its last step.
-/
namespace LoopChat.TransitionRuns

variable {σ α : Type*}

/-- `Run step s₀ as s`: taking the labels `as` in order leads from `s₀` to `s`. -/
inductive Run (step : σ → α → Option σ) (s₀ : σ) : List α → σ → Prop
  | nil : Run step s₀ [] s₀
  | snoc {as : List α} {s : σ} {a : α} {t : σ}
      (prior : Run step s₀ as s) (next : step s a = some t) : Run step s₀ (as ++ [a]) t

/-- The computable form of a run, used to replay concrete label lists. -/
def exec (step : σ → α → Option σ) : σ → List α → Option σ
  | s, [] => some s
  | s, a :: as => (step s a).bind fun t => exec step t as

/-- Every step of the run is taken in a state that meets the condition. -/
def Along (step : σ → α → Option σ) (s₀ : σ) (C : σ → α → Prop) (as : List α) : Prop :=
  ∀ pre a post s, as = pre ++ a :: post → Run step s₀ pre s → C s a

/-- A check of every state passed by a concrete label list, in the order of the labels. -/
def checkAlong (step : σ → α → Option σ) (check : σ → α → Bool) : σ → List α → Bool
  | _, [] => true
  | s, a :: as => check s a && (step s a).all fun t => checkAlong step check t as

/-- The label `a` is taken somewhere on the run, in a state with the property `P`. -/
def Taken (step : σ → α → Option σ) (s₀ : σ) (as : List α) (a : α) (P : σ → Prop) : Prop :=
  ∃ pre post s, as = pre ++ a :: post ∧ Run step s₀ pre s ∧ P s

/-- Some state passed on the run, the first and the last one included, has the property `P`. -/
def Once (step : σ → α → Option σ) (s₀ : σ) (as : List α) (P : σ → Prop) : Prop :=
  ∃ pre s, pre <+: as ∧ Run step s₀ pre s ∧ P s

/-- Every state passed on the run, the first and the last one included, has the property `P`. -/
def Throughout (step : σ → α → Option σ) (s₀ : σ) (as : List α) (P : σ → Prop) : Prop :=
  ∀ pre s, pre <+: as → Run step s₀ pre s → P s

variable {step : σ → α → Option σ} {s₀ s t u : σ} {as bs : List α} {a : α}
  {C : σ → α → Prop} {I P Q : σ → Prop}

theorem Run.cons (h : step s₀ a = some s) (g : Run step s as t) :
    Run step s₀ (a :: as) t := by
  induction g with
  | nil => exact Run.snoc Run.nil h
  | snoc _ hn ih => exact Run.snoc ih hn

theorem run_nil_iff : Run step s₀ [] t ↔ s₀ = t := by
  constructor
  · intro h
    generalize hl : ([] : List α) = l at h
    cases h with
    | nil => rfl
    | snoc _ _ => simp at hl
  · rintro rfl
    exact Run.nil

theorem run_cons_iff : Run step s₀ (a :: as) t ↔ ∃ s, step s₀ a = some s ∧ Run step s as t := by
  constructor
  · intro h
    generalize hl : a :: as = l at h
    induction h generalizing as with
    | nil => simp at hl
    | @snoc bs m b t prior next ih =>
      cases bs with
      | nil =>
        obtain ⟨rfl, rfl⟩ : a = b ∧ as = [] := by simpa using hl
        obtain rfl := run_nil_iff.mp prior
        exact ⟨t, next, Run.nil⟩
      | cons c cs =>
        obtain ⟨rfl, rfl⟩ : a = c ∧ as = cs ++ [b] := by simpa using hl
        obtain ⟨s, hs, hr⟩ := ih rfl
        exact ⟨s, hs, Run.snoc hr next⟩
  · rintro ⟨s, hs, hr⟩
    exact Run.cons hs hr

/-- The inductive and the computable form describe the same runs. -/
theorem run_iff_exec : Run step s₀ as s ↔ exec step s₀ as = some s := by
  induction as generalizing s₀ with
  | nil => rw [run_nil_iff, exec, Option.some.injEq]
  | cons a as ih =>
    rw [run_cons_iff, exec, Option.bind_eq_some_iff]
    exact exists_congr fun m => and_congr_right fun _ => ih

/-- A label list that can be replayed is a run; `f` is what is looked at of its end. -/
theorem run_of_exec_map {β : Type*} {f : σ → β} {b : β} (h : (exec step s₀ as).map f = some b) :
    ∃ s, Run step s₀ as s ∧ f s = b := by
  obtain ⟨s, hs, hb⟩ := Option.map_eq_some_iff.mp h
  exact ⟨s, run_iff_exec.mpr hs, hb⟩

theorem Run.deterministic (h : Run step s₀ as s) (g : Run step s₀ as t) : s = t := by
  have hs := run_iff_exec.mp h
  have ht := run_iff_exec.mp g
  exact Option.some.inj (hs.symm.trans ht)

/-- A run over a concatenation passes through a state at the seam. -/
theorem Run.split (h : Run step s₀ (as ++ bs) t) :
    ∃ s, Run step s₀ as s ∧ Run step s bs t := by
  induction as generalizing s₀ with
  | nil => exact ⟨s₀, Run.nil, h⟩
  | cons a as ih =>
    obtain ⟨m, hm, hr⟩ := run_cons_iff.mp h
    obtain ⟨s, hs, hb⟩ := ih hr
    exact ⟨s, Run.cons hm hs, hb⟩

/-- A run is a run on from every state that it passes. -/
theorem Run.rest (h : Run step s₀ (as ++ bs) t) (hs : Run step s₀ as s) : Run step s bs t := by
  obtain ⟨s', hs', hrest⟩ := h.split
  obtain rfl := hs.deterministic hs'
  exact hrest

theorem Run.append (h : Run step s₀ as s) (g : Run step s bs t) : Run step s₀ (as ++ bs) t := by
  induction g with
  | nil => simpa using h
  | snoc _ next ih =>
    rw [← List.append_assoc]
    exact ih.snoc next

/-- The rule of refinement: each step is matched by a run, of no steps perhaps. -/
theorem Run.refines {τ β : Type*} {step' : τ → β → Option τ} {R : σ → τ → Prop} {t₀ : τ}
    (h : Run step s₀ as s) (h₀ : R s₀ t₀) (hstep : ∀ {s a s' t}, R s t → step s a = some s' →
      ∃ bs t', Run step' t bs t' ∧ R s' t') :
    ∃ bs t, Run step' t₀ bs t ∧ R s t := by
  induction h with
  | nil => exact ⟨[], t₀, Run.nil, h₀⟩
  | @snoc as s a s' prior next ih =>
    obtain ⟨bs, t, ht, hR⟩ := ih
    obtain ⟨cs, t', ht', hR'⟩ := hstep hR next
    exact ⟨bs ++ cs, t', ht.append ht', hR'⟩

/-- The rule of forward simulation: each step is matched by a run over the labels it stands for. -/
theorem Run.simulate {τ β : Type*} {step' : τ → β → Option τ} {f : α → List β}
    {R : σ → τ → Prop} {t₀ : τ} (h : Run step s₀ as s) (h₀ : R s₀ t₀)
    (hstep : ∀ {s a s' t}, R s t → step s a = some s' → ∃ t', Run step' t (f a) t' ∧ R s' t') :
    ∃ t, Run step' t₀ (as.flatMap f) t ∧ R s t := by
  induction h with
  | nil => exact ⟨t₀, Run.nil, h₀⟩
  | @snoc as s a s' prior next ih =>
    obtain ⟨t, ht, hR⟩ := ih
    obtain ⟨t', ht', hR'⟩ := hstep hR next
    refine ⟨t', ?_, hR'⟩
    rw [List.flatMap_append, List.flatMap_singleton]
    exact ht.append ht'

/-- What holds at the start and is kept by every step holds in every state reached. -/
theorem Run.invariant (h : Run step s₀ as s) (h₀ : I s₀)
    (hstep : ∀ {t a u}, I t → step t a = some u → I u) : I s := by
  induction h with
  | nil => exact h₀
  | snoc _ hn ih => exact hstep ih hn

theorem Along.prior (h : Along step s₀ C (as ++ bs)) : Along step s₀ C as := by
  rintro pre a post s rfl hr
  exact h pre a (post ++ bs) s (by simp) hr

theorem Along.last (h : Along step s₀ C (as ++ [a])) (hr : Run step s₀ as s) : C s a :=
  h as a [] s rfl hr

theorem Along.of_forall (h : ∀ a ∈ as, ∀ s, C s a) : Along step s₀ C as := by
  rintro pre a post s rfl -
  exact h a (by simp) s

theorem Along.cons (h : C s₀ a) (hs : ∀ s, step s₀ a = some s → Along step s C as) :
    Along step s₀ C (a :: as) := by
  rintro pre b post s heq hr
  cases pre with
  | nil =>
    obtain ⟨rfl, rfl⟩ := List.cons.inj heq
    exact run_nil_iff.mp hr ▸ h
  | cons c pre =>
    obtain ⟨rfl, rfl⟩ := List.cons.inj heq
    obtain ⟨m, hm, hr⟩ := run_cons_iff.mp hr
    exact hs m hm pre b post s rfl hr

theorem along_of_check {check : σ → α → Bool} (hcheck : ∀ s a, check s a = true → C s a)
    (h : checkAlong step check s₀ as = true) : Along step s₀ C as := by
  induction as generalizing s₀ with
  | nil => exact Along.of_forall (by simp)
  | cons a as ih =>
    rw [checkAlong, Bool.and_eq_true, Option.all_eq_true] at h
    exact Along.cons (hcheck _ _ h.1) fun s hs => ih (h.2 s hs)

theorem Along.snoc (h : Along step s₀ C as) (hs : ∀ s, Run step s₀ as s → C s a) :
    Along step s₀ C (as ++ [a]) := by
  intro pre b post s heq hr
  rcases List.eq_nil_or_concat post with rfl | ⟨post, c, rfl⟩
  · obtain ⟨rfl, hba⟩ := List.append_inj' heq rfl
    obtain rfl := (List.cons.inj hba).1
    exact hs s hr
  · have heq' : as ++ [a] = (pre ++ b :: post) ++ [c] := by simpa using heq
    obtain ⟨rfl, -⟩ := List.append_inj' heq' rfl
    exact h pre b post s rfl hr

/-- The invariant rule for runs whose steps all meet a condition. -/
theorem Run.invariant_along (h : Run step s₀ as s) (hC : Along step s₀ C as) (h₀ : I s₀)
    (hstep : ∀ {t a u}, I t → C t a → step t a = some u → I u) : I s := by
  induction h with
  | nil => exact h₀
  | snoc prior hn ih => exact hstep (ih hC.prior) (hC.last prior) hn

/-- Two conditions that agree on every step taken from a state with the invariant, which the
one of them keeps, hold along the same runs. -/
theorem along_iff {G : σ → α → Prop} (h : Run step s₀ as s) (h₀ : I s₀)
    (hiff : ∀ {t a u}, I t → step t a = some u → (G t a ↔ C t a))
    (hkeep : ∀ {t a u}, I t → G t a → step t a = some u → I u) :
    Along step s₀ G as ↔ Along step s₀ C as := by
  suffices hboth : (Along step s₀ G as ↔ Along step s₀ C as) ∧ (Along step s₀ G as → I s) from
    hboth.1
  induction h with
  | nil => exact ⟨⟨fun _ => Along.of_forall (by simp), fun _ => Along.of_forall (by simp)⟩,
      fun _ => h₀⟩
  | @snoc as t a u prior next ih =>
    obtain ⟨hsame, hI⟩ := ih
    refine ⟨⟨fun hG => ?_, fun hC => ?_⟩, fun hG => hkeep (hI hG.prior) (hG.last prior) next⟩
    · refine (hsame.mp hG.prior).snoc fun t' ht' => ?_
      obtain rfl := ht'.deterministic prior
      exact (hiff (hI hG.prior) next).mp (hG.last prior)
    · refine (hsame.mpr hC.prior).snoc fun t' ht' => ?_
      obtain rfl := ht'.deterministic prior
      exact (hiff (hI (hsame.mpr hC.prior)) next).mpr (hC.last prior)

/-! ### Ranks -/

variable {K : σ → α → Bool} {rank : σ → ℕ}

/-- Where a step of the kind `C` lowers the rank in every state that is not at rest, such steps
alone lead to rest. -/
theorem exists_run_to_rest (hstep : ∀ s, ¬ Q s → ∃ a t, C s a ∧ step s a = some t ∧
    rank t < rank s) (s : σ) :
    ∃ as t, Run step s as t ∧ Along step s C as ∧ as.length ≤ rank s ∧ Q t := by
  induction hn : rank s using Nat.strong_induction_on generalizing s with
  | _ n ih =>
    by_cases hQ : Q s
    · exact ⟨[], s, Run.nil, Along.of_forall (by simp), Nat.zero_le _, hQ⟩
    · obtain ⟨a, t, ha, hs, hlt⟩ := hstep s hQ
      obtain ⟨as, u, hrun, hC, hlen, hu⟩ := ih (rank t) (hn ▸ hlt) t rfl
      refine ⟨a :: as, u, Run.cons hs hrun, Along.cons ha fun t' ht' => ?_, ?_, hu⟩
      · obtain rfl := Option.some.inj (hs.symm.trans ht')
        exact hC
      · rw [List.length_cons]
        omega

theorem Taken.mono (h : Taken step s₀ as a P) (hPQ : ∀ s, P s → Q s) : Taken step s₀ as a Q := by
  obtain ⟨pre, post, s, rfl, hr, hp⟩ := h
  exact ⟨pre, post, s, rfl, hr, hPQ s hp⟩

theorem Taken.append (h : Taken step s₀ as a P) (bs : List α) :
    Taken step s₀ (as ++ bs) a P := by
  obtain ⟨pre, post, s, rfl, hr, hp⟩ := h
  exact ⟨pre, post ++ bs, s, by simp, hr, hp⟩

theorem Taken.last (h : Run step s₀ as s) (hp : P s) : Taken step s₀ (as ++ [a]) a P :=
  ⟨as, [], s, rfl, h, hp⟩

theorem Once.append (h : Once step s₀ as P) (bs : List α) : Once step s₀ (as ++ bs) P := by
  obtain ⟨pre, s, hp, hr, hs⟩ := h
  exact ⟨pre, s, hp.trans (List.prefix_append _ _), hr, hs⟩

theorem Once.now (h : Run step s₀ as s) (hs : P s) : Once step s₀ as P :=
  ⟨as, s, List.prefix_refl _, h, hs⟩

theorem Once.mono (h : Once step s₀ as P) (hPQ : ∀ s, P s → Q s) : Once step s₀ as Q := by
  obtain ⟨pre, s, hp, hr, hs⟩ := h
  exact ⟨pre, s, hp, hr, hPQ s hs⟩

/-- A property holds in every state passed when it holds at first and after every step. -/
theorem throughout_iff : Throughout step s₀ as P ↔
    P s₀ ∧ Along step s₀ (fun t a => ∀ u, step t a = some u → P u) as := by
  constructor
  · intro h
    refine ⟨h [] s₀ as.nil_prefix Run.nil, ?_⟩
    rintro pre a post t rfl ht u hu
    exact h (pre ++ [a]) u ⟨post, by simp⟩ (ht.snoc hu)
  · rintro ⟨h₀, h⟩ pre s ⟨post, rfl⟩ hs
    cases hs with
    | nil => exact h₀
    | @snoc pre t a _ prior next => exact h pre a post t (by simp) prior s next

/-- The last entry that a partial function is defined on, by its value. -/
def lastOf {α β : Type*} (f : α → Option β) (l : List α) : Option β := (l.filterMap f).getLast?

theorem lastOf_append {α β : Type*} (f : α → Option β) (l l' : List α) :
    lastOf f (l ++ l') = (lastOf f l').or (lastOf f l) := by
  unfold lastOf
  rw [List.filterMap_append, List.getLast?_append]

@[simp] theorem lastOf_singleton {α β : Type*} (f : α → Option β) (x : α) :
    lastOf f [x] = f x := by
  unfold lastOf
  cases hx : f x <;> simp [hx]

theorem lastOf_eq_none {α β : Type*} {f : α → Option β} {l : List α} :
    lastOf f l = none ↔ ∀ x ∈ l, f x = none := by
  unfold lastOf
  rw [List.getLast?_eq_none_iff, List.filterMap_eq_nil_iff]

/-- Taking out an entry that the function is not defined on changes nothing. -/
theorem lastOf_remove {α β : Type*} {f : α → Option β} {before after : List α} {x : α}
    (hx : f x = none) : lastOf f (before ++ x :: after) = lastOf f (before ++ after) := by
  rw [List.append_cons]
  simp only [lastOf_append, lastOf_singleton, hx, Option.none_or]

/-- Taking out the first entry that the function is defined on: it counts where no other does. -/
theorem lastOf_first {α β : Type*} {f : α → Option β} {before after : List α} {x : α}
    (hbefore : ∀ y ∈ before, f y = none) :
    lastOf f (before ++ x :: after) = (lastOf f (before ++ after)).or (f x) := by
  rw [List.append_cons]
  simp only [lastOf_append, lastOf_singleton, lastOf_eq_none.mpr hbefore, Option.or_none]

/-! ### Lists -/

/-- A label in a list, by its place. -/
theorem eq_take_of_eq_append_cons {l pre post : List α} (h : l = pre ++ a :: post) :
    ∃ n < l.length, l[n]? = some a ∧ pre = l.take n ∧ post = l.drop (n + 1) := by
  subst h
  exact ⟨pre.length, by simp, by simp, by simp, by simp⟩

theorem exists_append_cons {p : α → Prop} {l l' : List α} {x : α} :
    (∃ y ∈ l ++ x :: l', p y) ↔ p x ∨ ∃ y ∈ l ++ l', p y := by
  simp only [List.mem_append, List.mem_cons, or_and_right, exists_or, exists_eq_left]
  exact or_left_comm

/-- A component over a change of one of them. -/
theorem getElem?_set_cases {l : List σ} {i j : ℕ} {x y z : σ} (hi : l[i]? = some y)
    (h : (l.set i x)[j]? = some z) : (j = i ∧ z = x) ∨ (j ≠ i ∧ l[j]? = some z) := by
  by_cases hj : j = i
  · subst hj
    rw [List.getElem?_set_self (List.getElem?_eq_some_iff.mp hi).1] at h
    exact Or.inl ⟨rfl, (Option.some.inj h).symm⟩
  · rw [List.getElem?_set_ne (Ne.symm hj)] at h
    exact Or.inr ⟨hj, h⟩

end LoopChat.TransitionRuns
