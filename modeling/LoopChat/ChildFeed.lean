import Mathlib

/-!
# A keyed list of children and its observers

One location of a real-time store. Children are stored under keys that are never reused.
A device sees the stored children and, at once, its own writes that the server has not
answered yet. Each observer is raised one event for each child its device sees; which
event comes next is left open. `raised` is the store's own record of the events handed
out so far, oldest first.
-/
namespace LoopChat.ChildFeed

/-- The device on which a closure runs and the object it belongs to. -/
structure Callback (δ ω : Type*) where
  device : δ
  owner : ω
  deriving DecidableEq

structure Event (κ ν : Type*) where
  observer : ℕ
  key : κ
  value : ν

structure Feed (κ ν δ ω : Type*) where
  children : List (κ × ν)
  outstanding : List (Callback δ ω × κ × ν)
  observers : List (Callback δ ω)
  raised : List (Event κ ν)
  issued : List κ
  known_nodup : ((children ++ outstanding.map Prod.snd).map Prod.fst).Nodup
  known_issued : ∀ p ∈ children ++ outstanding.map Prod.snd, p.1 ∈ issued
  raised_nodup : (raised.map fun e => (e.observer, e.key)).Nodup
  raised_observer : ∀ e ∈ raised, e.observer < observers.length
  raised_issued : ∀ e ∈ raised, e.key ∈ issued
  raised_value : ∀ e ∈ raised, ∀ v,
    (e.key, v) ∈ children ++ outstanding.map Prod.snd → v = e.value

variable {κ ν δ ω : Type*}

namespace Feed

def empty : Feed κ ν δ ω where
  children := []
  outstanding := []
  observers := []
  raised := []
  issued := []
  known_nodup := by simp
  known_issued := by simp
  raised_nodup := by simp
  raised_observer := by simp
  raised_issued := by simp
  raised_value := by simp

/-- Every child that some device sees. -/
def known (f : Feed κ ν δ ω) : List (κ × ν) := f.children ++ f.outstanding.map Prod.snd

/-- Register one more observer. -/
def observe (f : Feed κ ν δ ω) (cb : Callback δ ω) : Feed κ ν δ ω :=
  { f with
    observers := f.observers ++ [cb]
    raised_observer := fun e he => by
      have := f.raised_observer e he
      simp only [List.length_append, List.length_singleton]
      omega }

/-- Replace the stored and the unanswered children by ones that hold one new key. -/
def store (f : Feed κ ν δ ω) (k : κ) (v : ν) (hk : k ∉ f.issued)
    (children : List (κ × ν)) (outstanding : List (Callback δ ω × κ × ν))
    (hp : (children ++ outstanding.map Prod.snd).Perm ((k, v) :: f.known)) : Feed κ ν δ ω :=
  { f with
    children := children
    outstanding := outstanding
    issued := k :: f.issued
    known_nodup := by
      rw [(hp.map Prod.fst).nodup_iff, List.map_cons, List.nodup_cons]
      refine ⟨fun hm => ?_, f.known_nodup⟩
      obtain ⟨p, hmem, rfl⟩ := List.mem_map.mp hm
      exact hk (f.known_issued p hmem)
    known_issued := by
      intro p hmem
      rcases List.mem_cons.mp (hp.mem_iff.mp hmem) with rfl | hold
      · exact List.mem_cons_self
      · exact List.mem_cons_of_mem _ (f.known_issued p hold)
    raised_issued := fun e he => List.mem_cons_of_mem _ (f.raised_issued e he)
    raised_value := by
      intro e he w hmem
      rcases List.mem_cons.mp (hp.mem_iff.mp hmem) with heq | hold
      · have hke : e.key = k := congrArg Prod.fst heq
        exact absurd (f.raised_issued e he) (hke ▸ hk)
      · exact f.raised_value e he w hold }

/-- Replace the stored and the unanswered children by ones that hold no new child. -/
def settle (f : Feed κ ν δ ω) (children : List (κ × ν))
    (outstanding : List (Callback δ ω × κ × ν))
    (hp : (children ++ outstanding.map Prod.snd).Subperm f.known) : Feed κ ν δ ω :=
  { f with
    children := children
    outstanding := outstanding
    known_nodup := by
      obtain ⟨l, hl, hs⟩ := hp
      rw [← (hl.map Prod.fst).nodup_iff]
      exact (hs.map Prod.fst).nodup f.known_nodup
    known_issued := fun p hmem => f.known_issued p (hp.subset hmem)
    raised_value := fun e he v hmem => f.raised_value e he v (hp.subset hmem) }

/-- Hand the event of the child `(k, v)` to observer `o`. -/
def raise (f : Feed κ ν δ ω) (o : ℕ) (k : κ) (v : ν) (ho : o < f.observers.length)
    (hk : (k, v) ∈ f.known) (hn : (o, k) ∉ f.raised.map fun e => (e.observer, e.key)) :
    Feed κ ν δ ω :=
  { f with
    raised := f.raised ++ [⟨o, k, v⟩]
    raised_nodup := by
      rw [List.map_append, List.nodup_append]
      refine ⟨f.raised_nodup, by simp, ?_⟩
      intro a ha b hb
      rw [List.map_singleton, List.mem_singleton] at hb
      rintro rfl
      exact hn (hb ▸ ha)
    raised_observer := by
      intro e he
      rcases List.mem_append.mp he with he | he
      · exact f.raised_observer e he
      · rw [List.mem_singleton.mp he]
        exact ho
    raised_issued := by
      intro e he
      rcases List.mem_append.mp he with he | he
      · exact f.raised_issued e he
      · rw [List.mem_singleton.mp he]
        exact f.known_issued _ hk
    raised_value := by
      intro e he w hmem
      rcases List.mem_append.mp he with he | he
      · exact f.raised_value e he w hmem
      · rw [List.mem_singleton.mp he] at hmem ⊢
        exact congrArg Prod.snd
          (List.inj_on_of_nodup_map f.known_nodup hmem hk rfl) }

section Operations
variable [DecidableEq κ] [DecidableEq δ]

/-- What device `d` sees: the stored children and its own unanswered writes. -/
def visible (f : Feed κ ν δ ω) (d : δ) : List (κ × ν) :=
  f.children ++ (f.outstanding.filter fun p => p.1.device = d).map Prod.snd

/-- A local write under a new key; the server has not answered yet. -/
def write (f : Feed κ ν δ ω) (cb : Callback δ ω) (k : κ) (v : ν) : Option (Feed κ ν δ ω) :=
  if hk : k ∉ f.issued then
    some (f.store k v hk f.children (f.outstanding ++ [(cb, k, v)]) (by
      simp only [known, List.map_append, List.map_singleton, ← List.append_assoc]
      exact List.perm_append_singleton _ _))
  else none

/-- A child that arrives from outside under a new key. -/
def insert (f : Feed κ ν δ ω) (k : κ) (v : ν) : Option (Feed κ ν δ ω) :=
  if hk : k ∉ f.issued then
    some (f.store k v hk (f.children ++ [(k, v)]) f.outstanding (by
      simp only [known, List.append_assoc, List.singleton_append]
      exact List.perm_middle))
  else none

/-- The server stores the `i`-th unanswered write; the answer goes to its callback. -/
def accept (f : Feed κ ν δ ω) (i : ℕ) : Option (Callback δ ω × Feed κ ν δ ω) :=
  if hi : i < f.outstanding.length then
    some (f.outstanding[i].1,
      f.settle (f.children ++ [f.outstanding[i].2]) (f.outstanding.eraseIdx i) (by
        have hp := (List.getElem_cons_eraseIdx_perm hi).map Prod.snd
        simp only [known, List.append_assoc, List.singleton_append]
        exact (hp.append_left f.children).subperm))
  else none

/-- The server refuses the `i`-th unanswered write; the writing device drops it. -/
def reject (f : Feed κ ν δ ω) (i : ℕ) : Option (Callback δ ω × Feed κ ν δ ω) :=
  if hi : i < f.outstanding.length then
    some (f.outstanding[i].1,
      f.settle f.children (f.outstanding.eraseIdx i) (by
        have hs := (List.eraseIdx_sublist f.outstanding i).map Prod.snd
        exact (hs.append_left f.children).subperm))
  else none

omit [DecidableEq κ] in
theorem visible_subset_known (f : Feed κ ν δ ω) (d : δ) : f.visible d ⊆ f.known := by
  intro p hp
  rcases List.mem_append.mp hp with h | h
  · exact List.mem_append_left _ h
  · obtain ⟨q, hq, rfl⟩ := List.mem_map.mp h
    exact List.mem_append_right _ (List.mem_map_of_mem (List.mem_of_mem_filter hq))

omit [DecidableEq δ] in
theorem mem_of_lookup {l : List (κ × ν)} {k : κ} {v : ν} (h : l.lookup k = some v) :
    (k, v) ∈ l := by
  obtain ⟨l₁, l₂, rfl, -⟩ := List.lookup_eq_some_iff.mp h
  simp

/-- Raise the event of the child under `k` to observer `o`, once, when its device sees it. -/
def deliver (f : Feed κ ν δ ω) (o : ℕ) (k : κ) : Option (Callback δ ω × ν × Feed κ ν δ ω) :=
  if ho : o < f.observers.length then
    match hv : (f.visible f.observers[o].device).lookup k with
    | none => none
    | some v =>
      if hn : (o, k) ∉ f.raised.map fun e => (e.observer, e.key) then
        some (f.observers[o], v,
          f.raise o k v ho (f.visible_subset_known _ (mem_of_lookup hv)) hn)
      else none
  else none

/-- Every observer has been raised the event of every child its device sees. -/
def Quiescent (f : Feed κ ν δ ω) : Prop :=
  ∀ o cb, f.observers[o]? = some cb → ∀ p ∈ f.visible cb.device,
    (o, p.1) ∈ f.raised.map fun e => (e.observer, e.key)

end Operations

/-- The events raised to the observers of one owner, oldest first. -/
def eventsOf [DecidableEq ω] (f : Feed κ ν δ ω) (w : ω) : List (Event κ ν) :=
  f.raised.filter fun e => (f.observers[e.observer]?).map Callback.owner = some w

/-- The owner has registered at most one observer. -/
def AtMostOneObserver (f : Feed κ ν δ ω) (w : ω) : Prop :=
  ∀ (i j : ℕ) (a b : Callback δ ω), f.observers[i]? = some a → f.observers[j]? = some b →
    a.owner = w → b.owner = w → i = j

section Specifications
variable {f g : Feed κ ν δ ω} {cb : Callback δ ω} {o i : ℕ} {k : κ} {v : ν} {w : ω}

@[simp] theorem observe_observers (f : Feed κ ν δ ω) (cb : Callback δ ω) :
    (f.observe cb).observers = f.observers ++ [cb] := rfl

@[simp] theorem observe_raised (f : Feed κ ν δ ω) (cb : Callback δ ω) :
    (f.observe cb).raised = f.raised := rfl

theorem known_unique {p q : κ × ν} (hp : p ∈ f.known) (hq : q ∈ f.known) (h : p.1 = q.1) :
    p = q := List.inj_on_of_nodup_map f.known_nodup hp hq h

/-- The server's answer moves a write to the stored children. -/
theorem accept_eq_some (h : f.accept i = some (cb, g)) :
    ∃ p, f.outstanding[i]? = some (cb, p) ∧ g.children = f.children ++ [p] ∧
      g.outstanding = f.outstanding.eraseIdx i ∧ g.observers = f.observers ∧
      g.raised = f.raised ∧ g.issued = f.issued := by
  unfold accept at h
  split_ifs at h with hi
  obtain ⟨rfl, rfl⟩ := Prod.mk.inj (Option.some.inj h)
  exact ⟨f.outstanding[i].2, List.getElem?_eq_getElem hi, rfl, rfl, rfl, rfl, rfl⟩

theorem reject_eq_some (h : f.reject i = some (cb, g)) :
    ∃ p, f.outstanding[i]? = some (cb, p) ∧ g.children = f.children ∧
      g.outstanding = f.outstanding.eraseIdx i ∧ g.observers = f.observers ∧
      g.raised = f.raised ∧ g.issued = f.issued := by
  unfold reject at h
  split_ifs at h with hi
  obtain ⟨rfl, rfl⟩ := Prod.mk.inj (Option.some.inj h)
  exact ⟨f.outstanding[i].2, List.getElem?_eq_getElem hi, rfl, rfl, rfl, rfl, rfl⟩

/-- The server's answers bring no new child. -/
theorem accept_known (h : f.accept i = some (cb, g)) : g.known ⊆ f.known := by
  obtain ⟨p, hi, hc, ho, -⟩ := accept_eq_some h
  intro q hq
  simp only [known, hc, ho, List.mem_append, List.mem_singleton, List.mem_map] at hq
  rcases hq with (hq | rfl) | ⟨r, hr, rfl⟩
  · exact List.mem_append_left _ hq
  · have hmem : (cb, q) ∈ f.outstanding := List.mem_of_getElem? hi
    exact List.mem_append_right _ (List.mem_map_of_mem hmem)
  · have hmem : r ∈ f.outstanding := List.mem_of_mem_eraseIdx hr
    exact List.mem_append_right _ (List.mem_map_of_mem hmem)

theorem reject_known (h : f.reject i = some (cb, g)) : g.known ⊆ f.known := by
  obtain ⟨p, -, hc, ho, -⟩ := reject_eq_some h
  intro q hq
  simp only [known, hc, ho, List.mem_append, List.mem_map] at hq
  rcases hq with hq | ⟨r, hr, rfl⟩
  · exact List.mem_append_left _ hq
  · have hmem : r ∈ f.outstanding := List.mem_of_mem_eraseIdx hr
    exact List.mem_append_right _ (List.mem_map_of_mem hmem)

theorem accept_isSome {p : κ × ν} (h : f.outstanding[i]? = some (cb, p)) :
    ∃ g, f.accept i = some (cb, g) := by
  obtain ⟨hi, heq⟩ := List.getElem?_eq_some_iff.mp h
  rw [accept, dif_pos hi]
  exact ⟨_, congrArg (fun cb => some (cb, _)) (congrArg Prod.fst heq)⟩

theorem reject_isSome {p : κ × ν} (h : f.outstanding[i]? = some (cb, p)) :
    ∃ g, f.reject i = some (cb, g) := by
  obtain ⟨hi, heq⟩ := List.getElem?_eq_some_iff.mp h
  rw [reject, dif_pos hi]
  exact ⟨_, congrArg (fun cb => some (cb, _)) (congrArg Prod.fst heq)⟩

variable [DecidableEq κ]

/-- The children after a write are the old ones and the one written. -/
theorem mem_known_write {p : κ × ν} (h : f.write cb k v = some g) :
    p ∈ g.known ↔ p ∈ f.known ∨ p = (k, v) := by
  unfold write at h
  split_ifs at h with hk
  obtain rfl := Option.some.inj h
  simp [known, store, or_assoc]

theorem mem_known_insert {p : κ × ν} (h : f.insert k v = some g) :
    p ∈ g.known ↔ p ∈ f.known ∨ p = (k, v) := by
  unfold insert at h
  split_ifs at h with hk
  obtain rfl := Option.some.inj h
  simp only [known, store, List.mem_append, List.mem_singleton]
  tauto

/-- A write adds one unanswered child under a new key and nothing else. -/
theorem write_eq_some (h : f.write cb k v = some g) :
    k ∉ f.issued ∧ g.children = f.children ∧ g.outstanding = f.outstanding ++ [(cb, k, v)] ∧
      g.observers = f.observers ∧ g.raised = f.raised ∧ g.issued = k :: f.issued := by
  unfold write at h
  split_ifs at h with hk
  obtain rfl := Option.some.inj h
  exact ⟨hk, rfl, rfl, rfl, rfl, rfl⟩

theorem insert_eq_some (h : f.insert k v = some g) :
    k ∉ f.issued ∧ g.children = f.children ++ [(k, v)] ∧ g.outstanding = f.outstanding ∧
      g.observers = f.observers ∧ g.raised = f.raised ∧ g.issued = k :: f.issued := by
  unfold insert at h
  split_ifs at h with hk
  obtain rfl := Option.some.inj h
  exact ⟨hk, rfl, rfl, rfl, rfl, rfl⟩

theorem write_isSome (hk : k ∉ f.issued) : ∃ g, f.write cb k v = some g := by
  rw [write, dif_pos hk]
  exact ⟨_, rfl⟩

theorem insert_isSome (hk : k ∉ f.issued) : ∃ g, f.insert k v = some g := by
  rw [insert, dif_pos hk]
  exact ⟨_, rfl⟩

variable [DecidableEq δ]

/-- A delivery raises one event that was still due and changes nothing else. -/
theorem deliver_eq_some (h : f.deliver o k = some (cb, v, g)) :
    f.observers[o]? = some cb ∧ (k, v) ∈ f.visible cb.device ∧
      ((o, k) ∉ f.raised.map fun e => (e.observer, e.key)) ∧
      g.raised = f.raised ++ [⟨o, k, v⟩] ∧ g.children = f.children ∧
      g.outstanding = f.outstanding ∧ g.observers = f.observers ∧ g.issued = f.issued := by
  by_cases ho : o < f.observers.length
  · rw [deliver, dif_pos ho] at h
    split at h
    · cases h
    · rename_i v' hv
      by_cases hn : (o, k) ∉ f.raised.map fun e => (e.observer, e.key)
      · rw [dif_pos hn, Option.some.injEq, Prod.mk.injEq, Prod.mk.injEq] at h
        obtain ⟨rfl, rfl, rfl⟩ := h
        exact ⟨List.getElem?_eq_getElem ho, mem_of_lookup hv, hn, rfl, rfl, rfl, rfl, rfl⟩
      · rw [dif_neg hn] at h
        cases h
  · rw [deliver, dif_neg ho] at h
    cases h

theorem deliver_known (h : f.deliver o k = some (cb, v, g)) : g.known = f.known := by
  obtain ⟨-, -, -, -, hc, ho, -⟩ := deliver_eq_some h
  rw [known, known, hc, ho]

/-- An event that is due can be raised. -/
theorem deliver_isSome (ho : f.observers[o]? = some cb) (hk : (k, v) ∈ f.visible cb.device)
    (hn : (o, k) ∉ f.raised.map fun e => (e.observer, e.key)) :
    ∃ g, f.deliver o k = some (cb, v, g) := by
  obtain ⟨hlt, rfl⟩ := List.getElem?_eq_some_iff.mp ho
  unfold deliver
  rw [dif_pos hlt]
  split
  · rename_i hv
    have habs := List.lookup_eq_none_iff.mp hv (k, v) hk
    simp at habs
  · rename_i v' hv
    have hmem := f.visible_subset_known _ (mem_of_lookup hv)
    have heq := known_unique hmem (f.visible_subset_known _ hk) rfl
    obtain rfl : v' = v := congrArg Prod.snd heq
    rw [dif_pos hn]
    exact ⟨_, rfl⟩

omit [DecidableEq κ] in
/-- Without refusals a device never loses sight of a child. -/
theorem visible_mono (d : δ) (hc : f.children ⊆ g.children)
    (ho : ∀ p ∈ f.outstanding, p ∈ g.outstanding ∨ p.2 ∈ g.children) :
    f.visible d ⊆ g.visible d := by
  intro p hp
  rcases List.mem_append.mp hp with h | h
  · exact List.mem_append_left _ (hc h)
  · obtain ⟨q, hq, rfl⟩ := List.mem_map.mp h
    obtain ⟨hmem, hdev⟩ := List.mem_filter.mp hq
    rcases ho q hmem with hout | hchild
    · exact List.mem_append_right _ (List.mem_map_of_mem (List.mem_filter.mpr ⟨hout, hdev⟩))
    · exact List.mem_append_left _ hchild

omit [DecidableEq κ] in
theorem accept_visible (h : f.accept i = some (cb, g)) (d : δ) : f.visible d ⊆ g.visible d := by
  obtain ⟨p, hp, hc, ho, -⟩ := accept_eq_some h
  refine visible_mono d (by simp [hc]) fun q hq => ?_
  obtain ⟨hlt, hget⟩ := List.getElem?_eq_some_iff.mp hp
  rcases List.mem_cons.mp ((List.getElem_cons_eraseIdx_perm hlt).mem_iff.mpr hq) with rfl | he
  · exact Or.inr (by simp [hc, hget])
  · exact Or.inl (ho ▸ he)

omit [DecidableEq κ] in
theorem quiescent_iff :
    f.Quiescent ↔ ∀ o : Fin f.observers.length, ∀ p ∈ f.visible f.observers[o].device,
      (o.1, p.1) ∈ f.raised.map fun e : Event κ ν => (e.observer, e.key) := by
  constructor
  · intro h o p hp
    exact h o _ (List.getElem?_eq_getElem o.2) p hp
  · intro h o cb ho p hp
    obtain ⟨hlt, rfl⟩ := List.getElem?_eq_some_iff.mp ho
    exact h ⟨o, hlt⟩ p hp

instance (f : Feed κ ν δ ω) : Decidable f.Quiescent :=
  decidable_of_iff _ quiescent_iff.symm

end Specifications

section Events
variable [DecidableEq ω] {f g : Feed κ ν δ ω} {w : ω}

theorem mem_eventsOf {e : Event κ ν} : e ∈ f.eventsOf w ↔
    e ∈ f.raised ∧ ∃ cb, f.observers[e.observer]? = some cb ∧ cb.owner = w := by
  simp [eventsOf, List.mem_filter, Option.map_eq_some_iff]

/-- The events of an owner depend on the events raised and on the observers only. -/
theorem eventsOf_congr (hr : g.raised = f.raised) (ho : g.observers = f.observers) :
    g.eventsOf w = f.eventsOf w := by
  simp only [eventsOf, hr, ho]

/-- A new observer has no events yet, and the older ones keep theirs. -/
theorem eventsOf_observe (f : Feed κ ν δ ω) (cb : Callback δ ω) :
    (f.observe cb).eventsOf w = f.eventsOf w := by
  unfold eventsOf
  apply List.filter_congr
  intro e he
  rw [observe_observers, List.getElem?_append_left (f.raised_observer e he)]

theorem eventsOf_raise {cb : Callback δ ω} {o : ℕ} {k : κ} {v : ν}
    (hr : g.raised = f.raised ++ [⟨o, k, v⟩]) (ho : g.observers = f.observers)
    (hcb : f.observers[o]? = some cb) :
    g.eventsOf w = f.eventsOf w ++ if cb.owner = w then [⟨o, k, v⟩] else [] := by
  simp only [eventsOf, hr, ho, List.filter_append, List.filter_singleton, hcb,
    Option.map_some, Option.some.injEq, Bool.cond_decide]

theorem eventsOf_keys_nodup (h : f.AtMostOneObserver w) :
    ((f.eventsOf w).map Event.key).Nodup := by
  have hpairs : ((f.eventsOf w).map fun e => (e.observer, e.key)).Nodup :=
    (List.filter_sublist.map _).nodup f.raised_nodup
  refine List.Nodup.map_on ?_ (List.Nodup.of_map _ hpairs)
  intro a ha b hb hkey
  obtain ⟨-, x, hx, hxw⟩ := mem_eventsOf.mp ha
  obtain ⟨-, y, hy, hyw⟩ := mem_eventsOf.mp hb
  have hobs : a.observer = b.observer := h _ _ x y hx hy hxw hyw
  exact List.inj_on_of_nodup_map hpairs ha hb (by simp [hobs, hkey])

omit [DecidableEq ω] in
theorem atMostOneObserver_observe {cb : Callback δ ω} (h : f.AtMostOneObserver w)
    (hcb : cb.owner = w → ∀ c ∈ f.observers, c.owner ≠ w) :
    (f.observe cb).AtMostOneObserver w := by
  intro i j a b hi hj ha hb
  rw [observe_observers, List.getElem?_append] at hi hj
  split_ifs at hi with hil <;> split_ifs at hj with hjl
  · exact h i j a b hi hj ha hb
  · obtain rfl := List.mem_singleton.mp (List.mem_of_getElem? hj)
    exact absurd ha (hcb hb a (List.mem_of_getElem? hi))
  · obtain rfl := List.mem_singleton.mp (List.mem_of_getElem? hi)
    exact absurd hb (hcb ha b (List.mem_of_getElem? hj))
  · obtain ⟨hi', -⟩ := List.getElem?_eq_some_iff.mp hi
    obtain ⟨hj', -⟩ := List.getElem?_eq_some_iff.mp hj
    simp only [List.length_singleton] at hi' hj'
    omega

/-- With nothing undelivered, each child a device sees has reached each of its observers. -/
theorem Quiescent.event [DecidableEq κ] [DecidableEq δ] (hq : f.Quiescent) {o : ℕ}
    {cb : Callback δ ω} {p : κ × ν} (ho : f.observers[o]? = some cb)
    (hp : p ∈ f.visible cb.device) : ⟨o, p.1, p.2⟩ ∈ f.eventsOf cb.owner := by
  obtain ⟨e, he, heq⟩ := List.mem_map.mp (hq o cb ho p hp)
  obtain ⟨rfl, hkey⟩ : e.observer = o ∧ e.key = p.1 := by simpa using heq
  have hval : p.2 = e.value :=
    f.raised_value e he p.2 (by rw [hkey]; exact f.visible_subset_known _ hp)
  rw [mem_eventsOf, hval, ← hkey]
  exact ⟨he, cb, ho, rfl⟩

end Events

/-! ## Events of one child since an earlier moment -/

section Since
variable {f : Feed κ ν δ ω} {old new : List (Event κ ν)} {o : ℕ} {k : κ}

theorem raised_disjoint (hr : f.raised = old ++ new)
    (ho : (o, k) ∈ old.map fun e => (e.observer, e.key))
    (hn : (o, k) ∈ new.map fun e => (e.observer, e.key)) : False := by
  have hnd := f.raised_nodup
  rw [hr, List.map_append, List.nodup_append] at hnd
  exact hnd.2.2 _ ho _ hn rfl

variable [DecidableEq κ]

/-- The observers to which the child under `k` was raised in the stretch `new`. -/
def observersOf (new : List (Event κ ν)) (k : κ) : List ℕ :=
  (new.filter fun e => e.key = k).map Event.observer

theorem mem_observersOf : o ∈ observersOf new k ↔
    (o, k) ∈ new.map fun e => (e.observer, e.key) := by
  simp only [observersOf, List.mem_map, List.mem_filter, decide_eq_true_eq, Prod.mk.injEq]
  exact ⟨fun ⟨e, ⟨he, hk⟩, ho⟩ => ⟨e, he, ho, hk⟩, fun ⟨e, he, ho, hk⟩ => ⟨e, ⟨he, hk⟩, ho⟩⟩

theorem observersOf_nodup (hr : f.raised = old ++ new) : (observersOf new k).Nodup := by
  have hnd := f.raised_nodup
  rw [hr, List.map_append, List.nodup_append] at hnd
  have hsub := (List.filter_sublist (p := fun e => decide (e.key = k)) (l := new)).map
    fun e => (e.observer, e.key)
  refine List.Nodup.map_on ?_ (List.Nodup.of_map _ (hsub.nodup hnd.2.1))
  intro a ha b hb hobs
  obtain ⟨-, hka⟩ := List.mem_filter.mp ha
  obtain ⟨-, hkb⟩ := List.mem_filter.mp hb
  simp only [decide_eq_true_eq] at hka hkb
  exact List.inj_on_of_nodup_map (hsub.nodup hnd.2.1) ha hb (by simp [hobs, hka, hkb])

theorem length_eq_one_iff {l : List ℕ} {n : ℕ} (hl : l.Nodup) (hn : n ∈ l) :
    l.length = 1 ↔ ∀ o ∈ l, o = n := by
  rw [List.length_eq_one_iff]
  constructor
  · rintro ⟨m, rfl⟩ o ho
    rw [List.mem_singleton.mp ho, List.mem_singleton.mp hn]
  · intro hall
    exact ⟨n, List.perm_singleton.mp ((List.perm_ext_iff_of_nodup hl (by simp)).mpr fun o =>
      ⟨fun ho => by simp [hall o ho], fun ho => List.mem_singleton.mp ho ▸ hn⟩)⟩

/-- When everything is delivered and observer `n` is the newest, a child was raised once since
that observer registered exactly when every older observer had been raised it before. -/
theorem raised_once_since_iff [DecidableEq δ] {n : ℕ} {v : ν}
    (hq : f.Quiescent) (hr : f.raised = old ++ new) (hlen : f.observers.length = n + 1)
    (hold : ∀ e ∈ old, e.observer < n)
    (hall : ∀ c ∈ f.observers, (k, v) ∈ f.visible c.device) :
    (observersOf new k).length = 1 ↔
      ∀ o < n, (o, k) ∈ old.map fun e => (e.observer, e.key) := by
  have hraised : ∀ o < n + 1, (o, k) ∈ old.map (fun e => (e.observer, e.key)) ∨
      o ∈ observersOf new k := by
    intro o ho
    have hcb := List.getElem?_eq_getElem (l := f.observers) (hlen ▸ ho)
    have := hq o _ hcb (k, v) (hall _ (List.mem_of_getElem? hcb))
    rw [hr, List.map_append, List.mem_append] at this
    exact this.imp_right mem_observersOf.mpr
  have hbound : ∀ o ∈ observersOf new k, o < n + 1 := by
    intro o ho
    obtain ⟨e, he, rfl⟩ := List.mem_map.mp ho
    have hmem : e ∈ f.raised := hr ▸ List.mem_append_right _ (List.mem_of_mem_filter he)
    exact hlen ▸ f.raised_observer e hmem
  have hn : n ∈ observersOf new k := by
    refine (hraised n (by omega)).resolve_left fun hmem => ?_
    obtain ⟨e, he, heq⟩ := List.mem_map.mp hmem
    have hlt := hold e he
    rw [(Prod.mk.inj heq).1] at hlt
    omega
  rw [length_eq_one_iff (observersOf_nodup hr) hn]
  constructor
  · intro hone o ho
    exact (hraised o (by omega)).resolve_right fun hmem => by
      have := hone o hmem
      omega
  · intro hbefore o ho
    by_contra hne
    have hlt := hbound o ho
    exact raised_disjoint hr (hbefore o (by omega)) (mem_observersOf.mp ho)

end Since

/-! ## What every operation keeps -/

section Operations
variable [DecidableEq κ] [DecidableEq δ]

/-- `g` is what one operation makes of `f`. -/
inductive Next (f : Feed κ ν δ ω) : Feed κ ν δ ω → Prop
  | same : Next f f
  | observe (cb : Callback δ ω) : Next f (f.observe cb)
  | write {cb : Callback δ ω} {k : κ} {v : ν} {g : Feed κ ν δ ω}
      (write : f.write cb k v = some g) : Next f g
  | insert {k : κ} {v : ν} {g : Feed κ ν δ ω} (insert : f.insert k v = some g) : Next f g
  | accept {i : ℕ} {cb : Callback δ ω} {g : Feed κ ν δ ω}
      (accept : f.accept i = some (cb, g)) : Next f g
  | reject {i : ℕ} {cb : Callback δ ω} {g : Feed κ ν δ ω}
      (reject : f.reject i = some (cb, g)) : Next f g
  | deliver {o : ℕ} {k : κ} {cb : Callback δ ω} {v : ν} {g : Feed κ ν δ ω}
      (deliver : f.deliver o k = some (cb, v, g)) : Next f g

variable {f g : Feed κ ν δ ω}

theorem Next.issued (h : Next f g) : f.issued ⊆ g.issued := by
  cases h with
  | same | observe => exact List.Subset.refl _
  | write hw =>
    obtain ⟨-, -, -, -, -, hi⟩ := write_eq_some hw
    exact hi ▸ List.subset_cons_self _ _
  | insert hw =>
    obtain ⟨-, -, -, -, -, hi⟩ := insert_eq_some hw
    exact hi ▸ List.subset_cons_self _ _
  | accept ha =>
    obtain ⟨_, -, -, -, -, -, hi⟩ := accept_eq_some ha
    exact hi ▸ List.Subset.refl _
  | reject hj =>
    obtain ⟨_, -, -, -, -, -, hi⟩ := reject_eq_some hj
    exact hi ▸ List.Subset.refl _
  | deliver hd =>
    obtain ⟨-, -, -, -, -, -, -, hi⟩ := deliver_eq_some hd
    exact hi ▸ List.Subset.refl _

/-- What is stored stays so. -/
theorem Next.children (h : Next f g) : f.children ⊆ g.children := by
  cases h with
  | same | observe => exact List.Subset.refl _
  | write hw =>
    obtain ⟨-, hc, -⟩ := write_eq_some hw
    exact hc ▸ List.Subset.refl _
  | insert hw =>
    obtain ⟨-, hc, -⟩ := insert_eq_some hw
    exact hc ▸ List.subset_append_left _ _
  | accept ha =>
    obtain ⟨_, -, hc, -⟩ := accept_eq_some ha
    exact hc ▸ List.subset_append_left _ _
  | reject hj =>
    obtain ⟨_, -, hc, -⟩ := reject_eq_some hj
    exact hc ▸ List.Subset.refl _
  | deliver hd =>
    obtain ⟨-, -, -, -, hc, -⟩ := deliver_eq_some hd
    exact hc ▸ List.Subset.refl _

/-- A child that was not known has a key that was not issued. -/
theorem Next.fresh (h : Next f g) {p : κ × ν} (hp : p ∈ g.known) :
    p ∈ f.known ∨ p.1 ∉ f.issued := by
  cases h with
  | same | observe => exact Or.inl hp
  | write hw =>
    rcases (mem_known_write hw).mp hp with hp | rfl
    · exact Or.inl hp
    · exact Or.inr (write_eq_some hw).1
  | insert hw =>
    rcases (mem_known_insert hw).mp hp with hp | rfl
    · exact Or.inl hp
    · exact Or.inr (insert_eq_some hw).1
  | accept ha => exact Or.inl (accept_known ha hp)
  | reject hj => exact Or.inl (reject_known hj hp)
  | deliver hd => exact Or.inl (deliver_known hd ▸ hp)

/-- A new event is about a known child. -/
theorem Next.raised (h : Next f g) : f.raised <+: g.raised ∧
    ∀ e ∈ g.raised, e ∈ f.raised ∨ (e.key, e.value) ∈ f.known := by
  have hsame : g.raised = f.raised → f.raised <+: g.raised ∧
      ∀ e ∈ g.raised, e ∈ f.raised ∨ (e.key, e.value) ∈ f.known := fun hr =>
    ⟨hr ▸ List.prefix_refl _, fun e he => Or.inl (hr ▸ he)⟩
  cases h with
  | same | observe => exact hsame rfl
  | write hw =>
    obtain ⟨-, -, -, -, hr, -⟩ := write_eq_some hw
    exact hsame hr
  | insert hw =>
    obtain ⟨-, -, -, -, hr, -⟩ := insert_eq_some hw
    exact hsame hr
  | accept ha =>
    obtain ⟨_, -, -, -, -, hr, -⟩ := accept_eq_some ha
    exact hsame hr
  | reject hj =>
    obtain ⟨_, -, -, -, -, hr, -⟩ := reject_eq_some hj
    exact hsame hr
  | deliver hd =>
    obtain ⟨-, hv, -, hr, -⟩ := deliver_eq_some hd
    refine ⟨hr ▸ List.prefix_append _ _, fun e he => ?_⟩
    rcases List.mem_append.mp (hr ▸ he) with he | he
    · exact Or.inl he
    · rw [List.mem_singleton.mp he]
      exact Or.inr (f.visible_subset_known _ hv)

end Operations

end Feed

end LoopChat.ChildFeed
