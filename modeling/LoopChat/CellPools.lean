import Mathlib

/-!
# Rows and the cells they are handed

A list view keeps the cells it has made. A row that comes into sight is handed a cell that no
row shows, a new one when there is none, and configures it; a row that goes out of sight gives
its cell back as it is. Whether a cell is only ever handed to the row it was made for is a
matter of the order in which the rows come and go.
-/
namespace LoopChat.CellPools

/-- The cells ever made, and which of them each row shows. -/
structure Pool (ι β : Type*) where
  cells : List β
  visible : ι → Option ℕ
  inRange : ∀ i c, visible i = some c → c < cells.length
  exclusive : ∀ i j c, visible i = some c → visible j = some c → i = j

variable {ι β : Type*}

namespace Pool

def empty : Pool ι β := ⟨[], fun _ => none, by simp, by simp⟩

/-- The cell was made and is shown by no row. -/
def Free (p : Pool ι β) (c : ℕ) : Prop := c < p.cells.length ∧ ∀ i, p.visible i ≠ some c

instance [Fintype ι] (p : Pool ι β) (c : ℕ) : Decidable (p.Free c) :=
  inferInstanceAs (Decidable (_ ∧ _))

def cellAt (p : Pool ι β) (i : ι) : Option β := (p.visible i).bind fun c => p.cells[c]?

/-- The cell that a row shows is changed in place. -/
def modifyAt (p : Pool ι β) (i : ι) (f : β → β) : Pool ι β where
  cells := match p.visible i with
    | none => p.cells
    | some c => p.cells.modify c f
  visible := p.visible
  inRange := by
    intro j c h
    have hc := p.inRange j c h
    split <;> simpa using hc
  exclusive := p.exclusive

/-- Each cell is fit for its home row, is only shown there, and no row is home to two. -/
structure Homed (p : Pool ι β) (P : ι → β → Prop) (home : ℕ → ι) : Prop where
  cell : ∀ c b, p.cells[c]? = some b → P (home c) b
  shown : ∀ i c, p.visible i = some c → home c = i
  own : ∀ c < p.cells.length, ∀ c' < p.cells.length, home c = home c' → c = c'

variable {p q : Pool ι β} {P : ι → β → Prop} {home : ℕ → ι} {i : ι} {c : ℕ} {f : β → β} {b : β}

theorem empty_homed (P : ι → β → Prop) (home : ℕ → ι) : (empty : Pool ι β).Homed P home :=
  ⟨by simp [empty], by simp [empty], by simp [empty]⟩

theorem Homed.cellAt (h : p.Homed P home) (hb : p.cellAt i = some b) : P i b := by
  obtain ⟨c, hc, hb⟩ := Option.bind_eq_some_iff.mp hb
  exact h.shown i c hc ▸ h.cell c b hb

/-- Cells that are changed in a way that keeps them fit for their rows. -/
theorem fit_of_modify (h : ∀ c b, p.cells[c]? = some b → P (home c) b)
    (hf : ∀ b, P (home c) b → P (home c) (f b)) {c' : ℕ} {b' : β}
    (hb : (p.cells.modify c f)[c']? = some b') : P (home c') b' := by
  rw [List.getElem?_modify] at hb
  obtain ⟨b, hold, rfl⟩ := Option.map_eq_some_iff.mp hb
  have hfit := h c' b hold
  split_ifs with hc
  · subst hc
    exact hf b hfit
  · exact hfit

theorem Homed.modifyAt (h : p.Homed P home) (hf : ∀ b, P i b → P i (f b)) :
    (p.modifyAt i f).Homed P home where
  cell := by
    intro c' b' hb
    unfold Pool.modifyAt at hb
    cases hv : p.visible i with
    | none => exact h.cell c' b' (by simpa [hv] using hb)
    | some c =>
      refine fit_of_modify (c := c) (f := f) h.cell ?_ (by simpa [hv] using hb)
      rwa [h.shown i c hv]
  shown := h.shown
  own := by
    have hlength : (p.modifyAt i f).cells.length = p.cells.length := by
      cases hv : p.visible i <;> simp [Pool.modifyAt, hv]
    rw [hlength]
    exact h.own

/-- While every other row is in sight, a cell that no row shows is at home in this one. -/
theorem Homed.home_of_free (h : p.Homed P home) (hfree : p.Free c)
    (hsight : ∀ j, j ≠ i → (p.visible j).isSome) : home c = i := by
  by_contra hne
  obtain ⟨c', hc'⟩ := Option.isSome_iff_exists.mp (hsight (home c) hne)
  have hsame := h.own c hfree.1 c' (p.inRange _ _ hc') (h.shown _ _ hc').symm
  exact hfree.2 (home c) (hsame ▸ hc')

variable [DecidableEq ι]

/-- A row is handed a new cell. -/
def add (p : Pool ι β) (i : ι) (b : β) : Pool ι β where
  cells := p.cells ++ [b]
  visible := Function.update p.visible i (some p.cells.length)
  inRange := by
    intro j c h
    rw [List.length_append, List.length_singleton]
    by_cases hj : j = i
    · subst hj
      rw [Function.update_self] at h
      obtain rfl := Option.some.inj h
      exact Nat.lt_succ_self _
    · rw [Function.update_of_ne hj] at h
      exact (p.inRange j c h).trans (Nat.lt_succ_self _)
  exclusive := by
    intro j k c hj hk
    have hold : ∀ l, l ≠ i → Function.update p.visible i (some p.cells.length) l = some c →
        c < p.cells.length := fun l hl h => p.inRange l c (by rwa [Function.update_of_ne hl] at h)
    by_cases hji : j = i <;> by_cases hki : k = i
    · rw [hji, hki]
    · rw [hji, Function.update_self] at hj
      exact absurd (Option.some.inj hj) (hold k hki hk).ne'
    · rw [hki, Function.update_self] at hk
      exact absurd (Option.some.inj hk) (hold j hji hj).ne'
    · rw [Function.update_of_ne hji] at hj
      rw [Function.update_of_ne hki] at hk
      exact p.exclusive j k c hj hk

/-- A row is handed a cell that no row shows. -/
def reuse (p : Pool ι β) (i : ι) (c : ℕ) (f : β → β) (hfree : p.Free c) : Pool ι β where
  cells := p.cells.modify c f
  visible := Function.update p.visible i (some c)
  inRange := by
    intro j c' h
    rw [List.length_modify]
    by_cases hj : j = i
    · subst hj
      rw [Function.update_self] at h
      exact Option.some.inj h ▸ hfree.1
    · rw [Function.update_of_ne hj] at h
      exact p.inRange j c' h
  exclusive := by
    intro j k c' hj hk
    by_cases hji : j = i <;> by_cases hki : k = i
    · rw [hji, hki]
    · rw [hji, Function.update_self] at hj
      rw [Function.update_of_ne hki, ← hj] at hk
      exact absurd hk (hfree.2 k)
    · rw [hki, Function.update_self] at hk
      rw [Function.update_of_ne hji, ← hk] at hj
      exact absurd hj (hfree.2 j)
    · rw [Function.update_of_ne hji] at hj
      rw [Function.update_of_ne hki] at hk
      exact p.exclusive j k c' hj hk

/-- A row goes out of sight. -/
def leave (p : Pool ι β) (i : ι) : Pool ι β where
  cells := p.cells
  visible := Function.update p.visible i none
  inRange := by
    intro j c h
    by_cases hj : j = i
    · simp [hj] at h
    · exact p.inRange j c (by rwa [Function.update_of_ne hj] at h)
  exclusive := by
    intro j k c hj hk
    by_cases hji : j = i
    · simp [hji] at hj
    by_cases hki : k = i
    · simp [hki] at hk
    rw [Function.update_of_ne hji] at hj
    rw [Function.update_of_ne hki] at hk
    exact p.exclusive j k c hj hk

/-- A row comes into sight and configures the cell it is handed: the given one, or a new one
when no cell is free. -/
def enter [Fintype ι] (p : Pool ι β) (i : ι) (fresh : β) (configure : β → β) :
    Option ℕ → Option (Pool ι β)
  | none =>
    if p.visible i = none ∧ ∀ c < p.cells.length, ¬ p.Free c
    then some (p.add i (configure fresh)) else none
  | some c =>
    if h : p.visible i = none ∧ p.Free c then some (p.reuse i c configure h.2) else none

theorem Homed.leave (h : p.Homed P home) (i : ι) : (p.leave i).Homed P home where
  cell := h.cell
  shown := by
    intro j c hj
    by_cases hji : j = i
    · simp [Pool.leave, hji] at hj
    · exact h.shown j c (by simpa [Pool.leave, hji] using hj)
  own := h.own

theorem Homed.reuse (h : p.Homed P home) (hfree : p.Free c) (hc : home c = i)
    (hf : ∀ b, P i b → P i (f b)) : (p.reuse i c f hfree).Homed P home where
  cell := fun c' b' hb => fit_of_modify (c := c) (f := f) h.cell (by rwa [hc]) hb
  shown := by
    intro j c' hj
    by_cases hji : j = i
    · obtain rfl : c = c' := by simpa [Pool.reuse, hji] using hj
      rw [hc, hji]
    · exact h.shown j c' (by simpa [Pool.reuse, hji] using hj)
  own := by
    simpa [Pool.reuse] using h.own

/-- A row that is handed a new cell had none: it would be free. -/
theorem Homed.add (h : p.Homed P home) (hi : p.visible i = none)
    (hnone : ∀ c < p.cells.length, ¬ p.Free c) (hb : P i b) :
    (p.add i b).Homed P (Function.update home p.cells.length i) := by
  have hother : ∀ c < p.cells.length, home c ≠ i := by
    rintro c hc rfl
    refine hnone c hc ⟨hc, fun j hj => ?_⟩
    rw [← h.shown j c hj, hi] at hj
    cases hj
  have hold : ∀ c < p.cells.length, Function.update home p.cells.length i c = home c :=
    fun c hc => Function.update_of_ne hc.ne _ _
  have hcase : ∀ c < p.cells.length + 1, c < p.cells.length ∨ c = p.cells.length := fun c hc =>
    Nat.lt_succ_iff_lt_or_eq.mp hc
  constructor
  · intro c b' hb'
    rcases lt_or_ge c p.cells.length with hc | hc
    · rw [hold c hc]
      exact h.cell c b' (by simpa [Pool.add, List.getElem?_append_left hc] using hb')
    · have hlast := (List.getElem?_eq_some_iff.mp hb').1
      obtain rfl : c = p.cells.length := by
        simp only [Pool.add, List.length_append, List.length_singleton] at hlast
        omega
      obtain rfl : b = b' := by simpa [Pool.add] using hb'
      rwa [Function.update_self]
  · intro j c hj
    by_cases hji : j = i
    · obtain rfl : p.cells.length = c := by simpa [Pool.add, hji] using hj
      rw [Function.update_self, hji]
    · have hj' : p.visible j = some c := by simpa [Pool.add, hji] using hj
      rw [hold c (p.inRange j c hj')]
      exact h.shown j c hj'
  · intro c hc c' hc' heq
    simp only [Pool.add, List.length_append, List.length_singleton] at hc hc'
    rcases hcase c hc with hc | rfl <;> rcases hcase c' hc' with hc' | rfl
    · rw [hold c hc, hold c' hc'] at heq
      exact h.own c hc c' hc' heq
    · rw [hold c hc, Function.update_self] at heq
      exact absurd heq (hother c hc)
    · rw [hold c' hc', Function.update_self] at heq
      exact absurd heq.symm (hother c' hc')
    · rfl

/-- Rows that are handed used cells only while all the others are in sight get their own back. -/
theorem Homed.enter [Fintype ι] (h : p.Homed P home) {fresh : β} {reused : Option ℕ}
    (hin : p.enter i fresh f reused = some q) (hfresh : P i (f fresh))
    (hf : ∀ b, P i b → P i (f b))
    (hsight : reused.isSome → ∀ j, j ≠ i → (p.visible j).isSome) :
    ∃ home', q.Homed P home' := by
  cases reused with
  | none =>
    simp only [Pool.enter] at hin
    split_ifs at hin with hnew
    obtain rfl := Option.some.inj hin
    exact ⟨_, h.add hnew.1 hnew.2 hfresh⟩
  | some c =>
    simp only [Pool.enter] at hin
    split_ifs at hin with hfree
    obtain rfl := Option.some.inj hin
    exact ⟨home, h.reuse hfree.2 (h.home_of_free hfree.2 (hsight rfl)) hf⟩

end Pool

end LoopChat.CellPools
