import Mathlib

/-!
# A window with a navigation stack and presented controllers

The root controller is never popped; `stack` holds what was pushed over it and `covers`
what is presented, the topmost first in both. A controller is known by the number it was
given when it came up, so a call made by one that has left the window finds nothing.
-/
namespace LoopChat.NavigationWindow

variable {σ μ : Type*}

structure Pushed (σ : Type*) where
  id : ℕ
  content : σ
  deriving DecidableEq, Repr

/-- A presented controller; `presenter` is the one that presented it, none for the root. -/
structure Presented (μ : Type*) where
  id : ℕ
  presenter : Option ℕ
  content : μ
  deriving DecidableEq, Repr

/-- `appearing` says that the call of `viewDidAppear` on the visible screen is still due. -/
structure Window (σ μ : Type*) where
  stack : List (Pushed σ) := []
  covers : List (Presented μ) := []
  appearing : Bool := true
  nextId : ℕ := 0
  deriving DecidableEq, Repr

namespace Window

def onStack (w : Window σ μ) : Option ℕ → Bool
  | none => false
  | some id => w.stack.any fun p => p.id == id

def push (w : Window σ μ) (content : σ) : Window σ μ :=
  { w with stack := ⟨w.nextId, content⟩ :: w.stack, appearing := true, nextId := w.nextId + 1 }

def pop (w : Window σ μ) : Window σ μ := { w with stack := w.stack.tail, appearing := true }

/-- A pop that the user starts and gives up: the screen on top appears again. -/
def reappear (w : Window σ μ) : Window σ μ := { w with appearing := true }

def appeared (w : Window σ μ) : Window σ μ := { w with appearing := false }

/-- `navigationController?.popToRootViewController`: the navigation controller of a caller
that was popped is nil. -/
def popToRoot (w : Window σ μ) (caller : Option ℕ) : Window σ μ :=
  if w.onStack caller then { w with stack := [], appearing := true } else w

/-- Only a controller of the window that presents nothing yet can present. -/
def canPresent (w : Window σ μ) (presenter : Option ℕ) : Bool :=
  match w.covers with
  | [] => w.onStack presenter
  | top :: _ => presenter == some top.id

def present (w : Window σ μ) (presenter : Option ℕ) (content : μ) : Window σ μ :=
  if w.canPresent presenter then
    { w with covers := ⟨w.nextId, presenter, content⟩ :: w.covers, nextId := w.nextId + 1 }
  else w

/-- A presentation by the navigation controller itself. -/
def presentOnRoot (w : Window σ μ) (content : μ) : Window σ μ :=
  match w.covers with
  | [] => { w with covers := [⟨w.nextId, none, content⟩], nextId := w.nextId + 1 }
  | _ :: _ => w

/-- `dismiss` sent to a presented controller takes away what that controller presents, and
the controller itself only when it presents nothing. The screens below appear again when
a controller that hid them is gone. -/
def dismiss (hides : μ → Bool) (w : Window σ μ) (receiver : Option ℕ) : Window σ μ :=
  match w.covers with
  | [] => w
  | top :: below =>
    if receiver = some top.id then
      { w with covers := below, appearing := w.appearing || hides top.content }
    else if below.any fun p => receiver == some p.id then
      { w with covers := below.dropWhile fun p => receiver != some p.id }
    else w

/-- Some presented controller has this content. -/
def Covered (w : Window σ μ) (P : μ → Prop) : Prop := ∃ p ∈ w.covers, P p.content

def modifyScreen (w : Window σ μ) (id : Option ℕ) (f : σ → σ) : Window σ μ :=
  { w with
    stack := w.stack.map fun p => if some p.id = id then { p with content := f p.content } else p }

def modifyCover (w : Window σ μ) (id : Option ℕ) (f : μ → μ) : Window σ μ :=
  { w with
    covers := w.covers.map fun p =>
      if some p.id = id then { p with content := f p.content } else p }

variable {w : Window σ μ} {caller presenter receiver : Option ℕ} {content : μ} {hides : μ → Bool}
  {P : μ → Prop}

@[simp] theorem popToRoot_covers (w : Window σ μ) (caller : Option ℕ) :
    (w.popToRoot caller).covers = w.covers := by
  unfold popToRoot
  split_ifs <;> rfl

theorem popToRoot_of_onStack (h : w.onStack caller = true) :
    (w.popToRoot caller).stack = [] ∧ (w.popToRoot caller).appearing = true := by
  simp [popToRoot, h]

theorem popToRoot_of_stack_nil (h : w.stack = []) : w.popToRoot caller = w := by
  cases caller <;> simp [popToRoot, onStack, h]

theorem popToRoot_stack (w : Window σ μ) (caller : Option ℕ) :
    (w.popToRoot caller).stack = [] ∨ (w.popToRoot caller).stack = w.stack := by
  unfold popToRoot
  split_ifs
  · exact Or.inl rfl
  · exact Or.inr rfl

@[simp] theorem present_stack (w : Window σ μ) (presenter : Option ℕ) (content : μ) :
    (w.present presenter content).stack = w.stack := by
  unfold present
  split_ifs <;> rfl

/-- A presentation is added on top or has no effect. -/
theorem present_covers_cases (w : Window σ μ) (presenter : Option ℕ) (content : μ) :
    (w.present presenter content).covers = w.covers ∨
      (w.canPresent presenter = true ∧
        (w.present presenter content).covers = ⟨w.nextId, presenter, content⟩ :: w.covers) := by
  unfold present
  split_ifs with h
  · exact Or.inr ⟨h, rfl⟩
  · exact Or.inl rfl

theorem present_of_empty (hc : w.covers = []) (hs : w.stack = []) :
    w.present presenter content = w := by
  cases presenter <;> simp [Window.present, canPresent, hc, onStack, hs]

@[simp] theorem presentOnRoot_stack (w : Window σ μ) (content : μ) :
    (w.presentOnRoot content).stack = w.stack := by
  unfold presentOnRoot
  split <;> rfl

theorem presentOnRoot_covers (w : Window σ μ) (content : μ) :
    (w.presentOnRoot content).covers =
      if w.covers.isEmpty then [⟨w.nextId, none, content⟩] else w.covers := by
  unfold presentOnRoot
  split <;> simp [*]

theorem Covered.present (h : w.Covered P) : (w.present presenter content).Covered P := by
  obtain ⟨p, hp, hc⟩ := h
  rcases w.present_covers_cases presenter content with heq | ⟨-, heq⟩
  · exact ⟨p, heq ▸ hp, hc⟩
  · exact ⟨p, heq ▸ List.mem_cons_of_mem _ hp, hc⟩

theorem Covered.presentOnRoot (h : w.Covered P) : (w.presentOnRoot content).Covered P := by
  obtain ⟨p, hp, hc⟩ := h
  cases hw : w.covers with
  | nil => simp [hw] at hp
  | cons top below => exact ⟨p, by simpa [presentOnRoot_covers, hw] using hp, hc⟩

theorem covered_presentOnRoot (hw : w.covers = []) (hP : P content) :
    (w.presentOnRoot content).Covered P :=
  ⟨⟨w.nextId, none, content⟩, by simp [presentOnRoot_covers, hw], hP⟩

theorem covered_of_present (h : (w.present presenter content).Covered P) :
    w.Covered P ∨ P content := by
  obtain ⟨p, hp, hc⟩ := h
  rcases w.present_covers_cases presenter content with heq | ⟨-, heq⟩
  · exact Or.inl ⟨p, heq ▸ hp, hc⟩
  · rcases List.mem_cons.mp (heq ▸ hp) with rfl | hp
    · exact Or.inr hc
    · exact Or.inl ⟨p, hp, hc⟩

@[simp] theorem dismiss_stack (hides : μ → Bool) (w : Window σ μ) (receiver : Option ℕ) :
    (w.dismiss hides receiver).stack = w.stack := by
  unfold dismiss
  split
  · rfl
  · split_ifs <;> rfl

/-- What stays after a dismissal was there before, in the same order. -/
theorem dismiss_suffix (hides : μ → Bool) (w : Window σ μ) (receiver : Option ℕ) :
    (w.dismiss hides receiver).covers <:+ w.covers := by
  unfold dismiss
  split
  · rename_i h
    exact h ▸ List.suffix_refl _
  · rename_i top below h
    rw [h]
    split_ifs
    · exact List.suffix_cons _ _
    · exact (List.dropWhile_suffix _).trans (List.suffix_cons _ _)
    · exact h ▸ List.suffix_refl _

theorem covered_of_dismiss (h : (w.dismiss hides receiver).Covered P) : w.Covered P := by
  obtain ⟨p, hp, hc⟩ := h
  exact ⟨p, (w.dismiss_suffix hides receiver).mem hp, hc⟩

/-- The topmost controller goes when it is the receiver. -/
theorem dismiss_top {top : Presented μ} {below : List (Presented μ)}
    (h : w.covers = top :: below) : w.dismiss hides (some top.id) =
      { w with covers := below, appearing := w.appearing || hides top.content } := by
  simp [dismiss, h]

theorem modifyScreen_stack_eq_nil (w : Window σ μ) (id : Option ℕ) (f : σ → σ) :
    (w.modifyScreen id f).stack = [] ↔ w.stack = [] := by
  simp [modifyScreen]

theorem covered_modifyCover {id : Option ℕ} {f : μ → μ} (hf : ∀ c, P (f c) ↔ P c) :
    (w.modifyCover id f).Covered P ↔ w.Covered P := by
  simp only [Covered, modifyCover, List.mem_map]
  constructor
  · rintro ⟨_, ⟨p, hp, rfl⟩, hc⟩
    refine ⟨p, hp, ?_⟩
    split_ifs at hc
    · exact (hf _).mp hc
    · exact hc
  · rintro ⟨p, hp, hc⟩
    refine ⟨_, ⟨p, hp, rfl⟩, ?_⟩
    split_ifs
    · exact (hf _).mpr hc
    · exact hc

/-! ### Controllers that are only ever at the bottom -/

/-- Nothing presented over another presented controller has a content of kind `B`. -/
def Based (B : μ → Prop) (w : Window σ μ) : Prop := ∀ p ∈ w.covers.dropLast, ¬ B p.content

variable {B : μ → Prop} {v : Window σ μ}

theorem Based.of_covers_eq (h : w.Based B) (heq : v.covers = w.covers) : v.Based B := by
  unfold Based
  rw [heq]
  exact h

theorem based_of_length_le_one (h : w.covers.length ≤ 1) : w.Based B := by
  intro p hp
  have hnil : w.covers.dropLast = [] := List.eq_nil_of_length_eq_zero (by simp; omega)
  exact absurd hp (by simp [hnil])

theorem Based.present (h : w.Based B) (hB : ¬ B content) :
    (w.present presenter content).Based B := by
  rcases w.present_covers_cases presenter content with heq | ⟨-, heq⟩
  · exact h.of_covers_eq heq
  · intro p hp
    rw [heq] at hp
    cases hc : w.covers with
    | nil => simp [hc] at hp
    | cons top below =>
      rw [hc, List.dropLast_cons_of_ne_nil (by simp)] at hp
      rcases List.mem_cons.mp hp with rfl | hp
      · exact hB
      · exact h p (hc ▸ hp)

theorem based_present_of_empty (h : w.covers = []) : (w.present presenter content).Based B := by
  apply based_of_length_le_one
  rcases w.present_covers_cases presenter content with heq | ⟨-, heq⟩ <;> simp [heq, h]

theorem Based.presentOnRoot (h : w.Based B) : (w.presentOnRoot content).Based B := by
  cases hc : w.covers with
  | nil => exact based_of_length_le_one (by simp [presentOnRoot_covers, hc])
  | cons top below => exact h.of_covers_eq (by simp [presentOnRoot_covers, hc])

theorem Based.dismiss (h : w.Based B) : (w.dismiss hides receiver).Based B := by
  intro p hp
  obtain ⟨pre, heq⟩ := w.dismiss_suffix hides receiver
  cases hd : (w.dismiss hides receiver).covers with
  | nil => simp [hd] at hp
  | cons top below =>
    apply h p
    rw [← heq, List.dropLast_append_of_ne_nil (by simp [hd])]
    exact List.mem_append_right _ hp

theorem Based.modifyCover (h : w.Based B) {id : Option ℕ} {f : μ → μ}
    (hf : ∀ c, B (f c) ↔ B c) : (w.modifyCover id f).Based B := by
  intro p hp
  simp only [Window.modifyCover, ← List.map_dropLast, List.mem_map] at hp
  obtain ⟨q, hq, rfl⟩ := hp
  split_ifs
  · exact fun hB => h q hq ((hf _).mp hB)
  · exact h q hq

theorem Based.eq_getLast (h : w.Based B) {p : Presented μ} (hp : p ∈ w.covers)
    (hB : B p.content) : w.covers.getLast? = some p := by
  rcases List.eq_nil_or_concat w.covers with hn | ⟨l, q, heq⟩
  · simp [hn] at hp
  · rw [List.concat_eq_append] at heq
    rw [heq] at hp ⊢
    rcases List.mem_append.mp hp with hl | hq
    · exact absurd hB (h p (by simpa [heq] using hl))
    · simpa using (List.mem_singleton.mp hq).symm

/-- A dismissal takes away a controller at the bottom only when that is the receiver and
presents nothing. -/
theorem Based.dismiss_covered (h : w.Based B) (hides : μ → Bool) (receiver : Option ℕ)
    (hPB : ∀ c, P c → B c) (hp : w.Covered P) :
    (w.dismiss hides receiver).Covered P ∨ ∃ top, w.covers = [top] ∧ P top.content ∧
      (w.dismiss hides receiver).covers = [] ∧
      (w.dismiss hides receiver).appearing = (w.appearing || hides top.content) := by
  obtain ⟨p, hp, hc⟩ := hp
  have hlast := h.eq_getLast hp (hPB _ hc)
  by_cases hd : (w.dismiss hides receiver).covers = []
  · cases hw : w.covers with
    | nil => simp [hw] at hp
    | cons top below =>
      unfold Window.dismiss at hd ⊢
      simp only [hw] at hd ⊢
      split_ifs at hd ⊢ with hr hany
      · obtain rfl : below = [] := by simpa using hd
        obtain rfl : top = p := by simpa [hw] using hlast
        exact Or.inr ⟨top, rfl, hc, rfl, rfl⟩
      · obtain ⟨q, hq, hrec⟩ := List.any_eq_true.mp hany
        have := List.dropWhile_eq_nil_iff.mp hd q hq
        simp_all
      · simp [hw] at hd
  · refine Or.inl ⟨p, ?_, hc⟩
    obtain ⟨pre, heq⟩ := w.dismiss_suffix hides receiver
    rw [← heq, List.getLast?_append_of_ne_nil _ hd] at hlast
    exact List.mem_of_getLast? hlast

/-! ### Numbers -/

/-- Later states of a window number what they push with new numbers. -/
structure Grows (w v : Window σ μ) : Prop where
  nextId : w.nextId ≤ v.nextId
  stack : ∀ p ∈ v.stack, (∃ q ∈ w.stack, q.id = p.id) ∨ (w.nextId ≤ p.id ∧ p.id < v.nextId)

/-- The numbers on the stack have been given out. -/
def Numbered (w : Window σ μ) : Prop := ∀ p ∈ w.stack, p.id < w.nextId

theorem Grows.of_subset (hn : w.nextId ≤ v.nextId) (hs : v.stack ⊆ w.stack) : w.Grows v :=
  ⟨hn, fun p hp => Or.inl ⟨p, hs hp, rfl⟩⟩

theorem Grows.refl (w : Window σ μ) : w.Grows w := .of_subset le_rfl (List.Subset.refl _)

theorem Grows.trans {u : Window σ μ} (h : w.Grows v) (g : v.Grows u) : w.Grows u := by
  refine ⟨h.nextId.trans g.nextId, fun p hp => ?_⟩
  have hwv := h.nextId
  have hvu := g.nextId
  rcases g.stack p hp with ⟨q, hq, hid⟩ | ⟨hle, hlt⟩
  · rcases h.stack q hq with ⟨r, hr, hr'⟩ | ⟨hle, hlt⟩
    · exact Or.inl ⟨r, hr, hr'.trans hid⟩
    · exact Or.inr (by omega)
  · exact Or.inr (by omega)

theorem Numbered.grows (h : w.Numbered) (g : w.Grows v) : v.Numbered := by
  intro p hp
  have hn := g.nextId
  rcases g.stack p hp with ⟨q, hq, hid⟩ | ⟨-, hlt⟩
  · have hq := h q hq
    omega
  · exact hlt

theorem grows_push (w : Window σ μ) (content : σ) : w.Grows (w.push content) where
  nextId := Nat.le_succ _
  stack := by
    intro p hp
    rcases List.mem_cons.mp hp with rfl | hp
    · exact Or.inr ⟨le_rfl, Nat.lt_succ_self _⟩
    · exact Or.inl ⟨p, hp, rfl⟩

theorem grows_pop (w : Window σ μ) : w.Grows w.pop :=
  .of_subset le_rfl (List.tail_subset _)

theorem grows_modifyScreen (w : Window σ μ) (id : Option ℕ) (f : σ → σ) :
    w.Grows (w.modifyScreen id f) where
  nextId := le_rfl
  stack := by
    intro p hp
    obtain ⟨q, hq, rfl⟩ := List.mem_map.mp hp
    exact Or.inl ⟨q, hq, by split_ifs <;> rfl⟩

theorem grows_popToRoot (w : Window σ μ) (caller : Option ℕ) : w.Grows (w.popToRoot caller) := by
  unfold popToRoot
  split_ifs
  · exact .of_subset le_rfl (List.nil_subset _)
  · exact .refl w

theorem grows_present (w : Window σ μ) (presenter : Option ℕ) (content : μ) :
    w.Grows (w.present presenter content) := by
  unfold Window.present
  split_ifs
  · exact .of_subset (Nat.le_succ _) (List.Subset.refl _)
  · exact .refl w

theorem grows_presentOnRoot (w : Window σ μ) (content : μ) :
    w.Grows (w.presentOnRoot content) := by
  unfold Window.presentOnRoot
  split
  · exact .of_subset (Nat.le_succ _) (List.Subset.refl _)
  · exact .refl w

theorem grows_dismiss (hides : μ → Bool) (w : Window σ μ) (receiver : Option ℕ) :
    w.Grows (w.dismiss hides receiver) := by
  unfold Window.dismiss
  split
  · exact .refl w
  · split_ifs
    · exact .of_subset le_rfl (List.Subset.refl _)
    · exact .of_subset le_rfl (List.Subset.refl _)
    · exact .refl w

end Window

end LoopChat.NavigationWindow
