import LoopChat.DeliveryQueues

/-!
# A feed without some of its writes

`f'` is `f` without the writes under the keys that are not kept: none of those is stored, so
the two feeds differ in unanswered writes and in events only. Each operation on a kept key
can be repeated in `f'`, and one on another key leaves no difference there.
-/
namespace LoopChat.ChildFeed

variable {κ ν δ ω ρ : Type*}

/-- With distinct keys, erasing an entry is dropping its key. -/
theorem eraseIdx_eq_filter {α : Type*} [DecidableEq κ] {key : α → κ} {l : List α} {i : ℕ} {x : α}
    (h : (l.map key).Nodup) (hi : l[i]? = some x) :
    l.eraseIdx i = l.filter fun y => key y ≠ key x := by
  induction l generalizing i with
  | nil => simp at hi
  | cons y ys ih =>
    rw [List.map_cons, List.nodup_cons] at h
    cases i with
    | zero =>
      obtain rfl : y = x := by simpa using hi
      have hrest : ys.filter (fun z => key z ≠ key y) = ys := by
        refine List.filter_eq_self.mpr fun z hz => ?_
        have hne : key z ≠ key y := fun heq => h.1 (heq ▸ List.mem_map_of_mem hz)
        simpa using hne
      simpa using hrest.symm
    | succ i =>
      have hx : ys[i]? = some x := by simpa using hi
      have hne : key y ≠ key x := fun heq =>
        h.1 (heq ▸ List.mem_map_of_mem (List.mem_of_getElem? hx))
      rw [List.eraseIdx_cons_succ, ih h.2 hx, List.filter_cons_of_pos (by simpa using hne)]

namespace Feed

/-- `f'` is `f` without the writes under keys that are not kept. -/
structure Thinned (keep : κ → Bool) (f f' : Feed κ ν δ ω) : Prop where
  children : f'.children = f.children
  outstanding : f'.outstanding = f.outstanding.filter fun p => keep p.2.1
  observers : f'.observers = f.observers
  raised : f'.raised = f.raised.filter fun e => keep e.key
  issued : f'.issued ⊆ f.issued

variable {keep : κ → Bool} {f f' g : Feed κ ν δ ω} {cb : Callback δ ω} {i o : ℕ} {k : κ} {v : ν}

theorem Thinned.observe (h : Thinned keep f f') (cb : Callback δ ω) :
    Thinned keep (f.observe cb) (f'.observe cb) :=
  ⟨h.children, h.outstanding, by simp [h.observers], h.raised, h.issued⟩

theorem outstanding_nodup (f : Feed κ ν δ ω) : (f.outstanding.map fun p => p.2.1).Nodup := by
  have h := f.known_nodup
  rw [List.map_append, List.nodup_append, List.map_map] at h
  exact h.2.1

variable [DecidableEq κ]

/-- A refusal drops the child under the key of the write, and no other. -/
theorem mem_known_reject {p : κ × ν} (hi : f.outstanding[i]? = some (cb, k, v))
    (hj : f.reject i = some (cb, g)) : p ∈ g.known ↔ p ∈ f.known ∧ p.1 ≠ k := by
  obtain ⟨-, -, hc, ho, -⟩ := reject_eq_some hj
  have hwrite : (k, v) ∈ f.outstanding.map Prod.snd :=
    List.mem_map_of_mem (List.mem_of_getElem? hi)
  have hstored : p ∈ f.children → p.1 ≠ k := fun hp heq => by
    have hnodup := f.known_nodup
    rw [List.map_append, List.nodup_append] at hnodup
    exact hnodup.2.2 _ (List.mem_map_of_mem hp) _ (List.mem_map_of_mem hwrite) heq
  have hleft : p ∈ g.outstanding.map Prod.snd ↔ p ∈ f.outstanding.map Prod.snd ∧ p.1 ≠ k := by
    rw [ho, eraseIdx_eq_filter f.outstanding_nodup hi]
    simp only [List.mem_map, List.mem_filter, decide_eq_true_eq]
    constructor
    · rintro ⟨q, ⟨hq, hne⟩, rfl⟩
      exact ⟨⟨q, hq, rfl⟩, hne⟩
    · rintro ⟨⟨q, hq, rfl⟩, hne⟩
      exact ⟨q, ⟨hq, hne⟩, rfl⟩
  rw [known, known, hc, List.mem_append, List.mem_append, hleft, or_and_right]
  exact or_congr_left ⟨fun hp => ⟨hp, hstored hp⟩, And.left⟩

/-- `g` is `f` with the new key `k`, under which children or writes are added. -/
structure Grown (f g : Feed κ ν δ ω) (k : κ) (stored : List (κ × ν))
    (writes : List (Callback δ ω × κ × ν)) : Prop where
  children : g.children = f.children ++ stored
  outstanding : g.outstanding = f.outstanding ++ writes
  observers : g.observers = f.observers
  raised : g.raised = f.raised
  issued : g.issued = k :: f.issued

theorem grown_write (h : f.write cb k v = some g) : f.Grown g k [] [(cb, k, v)] := by
  obtain ⟨-, hc, ho, hobs, hr, hi⟩ := write_eq_some h
  exact ⟨by rw [hc, List.append_nil], ho, hobs, hr, hi⟩

theorem grown_insert (h : f.insert k v = some g) : f.Grown g k [(k, v)] [] := by
  obtain ⟨-, hc, ho, hobs, hr, hi⟩ := insert_eq_some h
  exact ⟨hc, by rw [ho, List.append_nil], hobs, hr, hi⟩

omit [DecidableEq κ] in
/-- The same kept key stored in both feeds. -/
theorem Thinned.grow (h : Thinned keep f f') {g' : Feed κ ν δ ω} {stored : List (κ × ν)}
    {writes : List (Callback δ ω × κ × ν)} (hg : f.Grown g k stored writes)
    (hg' : f'.Grown g' k stored writes) (hk : ∀ p ∈ writes, keep p.2.1 = true) :
    Thinned keep g g' where
  children := by rw [hg'.children, hg.children, h.children]
  outstanding := by
    rw [hg'.outstanding, hg.outstanding, h.outstanding, List.filter_append,
      List.filter_eq_self.mpr hk]
  observers := by rw [hg'.observers, hg.observers, h.observers]
  raised := by rw [hg'.raised, hg.raised, h.raised]
  issued := by
    rw [hg'.issued, hg.issued]
    exact List.cons_subset_cons k h.issued

theorem Thinned.write (h : Thinned keep f f') (hw : f.write cb k v = some g)
    (hk : keep k = true) : ∃ g', f'.write cb k v = some g' ∧ Thinned keep g g' := by
  obtain ⟨g', hg⟩ : ∃ g', f'.write cb k v = some g' :=
    write_isSome fun hmem => (write_eq_some hw).1 (h.issued hmem)
  exact ⟨g', hg, h.grow (grown_write hw) (grown_write hg) (by simpa using hk)⟩

theorem Thinned.write_dropped (h : Thinned keep f f') (hw : f.write cb k v = some g)
    (hk : keep k = false) : Thinned keep g f' := by
  obtain ⟨-, hc, ho, hobs, hr, hi⟩ := write_eq_some hw
  exact ⟨by rw [hc, h.children], by simp [ho, h.outstanding, hk], by rw [hobs, h.observers],
    by rw [hr, h.raised], by rw [hi]; exact List.subset_cons_of_subset k h.issued⟩

theorem Thinned.insert (h : Thinned keep f f') (hw : f.insert k v = some g) :
    ∃ g', f'.insert k v = some g' ∧ Thinned keep g g' := by
  obtain ⟨g', hg⟩ : ∃ g', f'.insert k v = some g' :=
    insert_isSome fun hmem => (insert_eq_some hw).1 (h.issued hmem)
  exact ⟨g', hg, h.grow (grown_insert hw) (grown_insert hg) (by simp)⟩

/-- The place of a kept write in the thinner feed. -/
theorem Thinned.place (h : Thinned keep f f') (hi : f.outstanding[i]? = some (cb, k, v))
    (hk : keep k = true) : ∃ j, f'.outstanding.findIdx? (fun p => p.2.1 = k) = some j ∧
      f'.outstanding[j]? = some (cb, k, v) := by
  have hmem : (cb, k, v) ∈ f'.outstanding := by
    rw [h.outstanding, List.mem_filter]
    exact ⟨List.mem_of_getElem? hi, hk⟩
  obtain ⟨j, hj⟩ : ∃ j, f'.outstanding.findIdx? (fun p => p.2.1 = k) = some j :=
    Option.isSome_iff_exists.mp (List.findIdx?_isSome.trans (List.any_eq_true.mpr
      ⟨_, hmem, by simp⟩))
  obtain ⟨hlt, hkey, -⟩ := List.findIdx?_eq_some_iff_getElem.mp hj
  refine ⟨j, hj, ?_⟩
  rw [List.getElem?_eq_getElem hlt]
  exact congrArg some (List.inj_on_of_nodup_map f'.outstanding_nodup (List.getElem_mem hlt) hmem
    (by simpa using hkey))

theorem Thinned.eraseIdx (h : Thinned keep f f') {j : ℕ}
    (hi : f.outstanding[i]? = some (cb, k, v)) (hj : f'.outstanding[j]? = some (cb, k, v)) :
    f'.outstanding.eraseIdx j = (f.outstanding.eraseIdx i).filter fun p => keep p.2.1 := by
  rw [eraseIdx_eq_filter f.outstanding_nodup hi, eraseIdx_eq_filter f'.outstanding_nodup hj,
    h.outstanding, List.filter_filter, List.filter_filter]
  exact List.filter_congr fun p _ => Bool.and_comm _ _

theorem Thinned.accept (h : Thinned keep f f') {j : ℕ} {g : Feed κ ν δ ω}
    (hi : f.outstanding[i]? = some (cb, k, v)) (hj : f'.outstanding[j]? = some (cb, k, v))
    (ha : f.accept i = some (cb, g)) : ∃ g', f'.accept j = some (cb, g') ∧ Thinned keep g g' := by
  obtain ⟨hlt, hget⟩ := List.getElem?_eq_some_iff.mp hj
  obtain ⟨g', hg⟩ : ∃ g', f'.accept j = some (cb, g') := by
    have hcb : f'.outstanding[j].1 = cb := congrArg Prod.fst hget
    rw [Feed.accept, dif_pos hlt, hcb]
    exact ⟨_, rfl⟩
  obtain ⟨p, hp, hc, ho, hobs, hr, his⟩ := accept_eq_some ha
  obtain ⟨p', hp', hc', ho', hobs', hr', his'⟩ := accept_eq_some hg
  obtain rfl : p = (k, v) := congrArg Prod.snd (Option.some.inj (hp.symm.trans hi))
  obtain rfl : p' = (k, v) := congrArg Prod.snd (Option.some.inj (hp'.symm.trans hj))
  exact ⟨g', hg, by rw [hc', hc, h.children], by rw [ho', ho, h.eraseIdx hi hj],
    by rw [hobs', hobs, h.observers], by rw [hr', hr, h.raised],
    by rw [his', his]; exact h.issued⟩

theorem Thinned.reject_dropped (h : Thinned keep f f') {g : Feed κ ν δ ω}
    (hi : f.outstanding[i]? = some (cb, k, v)) (hj : f.reject i = some (cb, g))
    (hk : keep k = false) : Thinned keep g f' := by
  obtain ⟨-, -, hc, ho, hobs, hr, his⟩ := reject_eq_some hj
  refine ⟨by rw [hc, h.children], ?_, by rw [hobs, h.observers], by rw [hr, h.raised],
    by rw [his]; exact h.issued⟩
  rw [ho, eraseIdx_eq_filter f.outstanding_nodup hi, h.outstanding, List.filter_filter]
  refine List.filter_congr fun p _ => ?_
  by_cases hp : p.2.1 = k
  · simp [hp, hk]
  · simp [hp]

variable [DecidableEq δ]

omit [DecidableEq κ] in
theorem Thinned.visible (h : Thinned keep f f') {d : δ} (hv : (k, v) ∈ f.visible d)
    (hk : keep k = true) : (k, v) ∈ f'.visible d := by
  rcases List.mem_append.mp hv with hc | ho
  · exact List.mem_append_left _ (h.children ▸ hc)
  · obtain ⟨p, hp, heq⟩ := List.mem_map.mp ho
    obtain ⟨hmem, hdev⟩ := List.mem_filter.mp hp
    refine List.mem_append_right _ (List.mem_map.mpr ⟨p, List.mem_filter.mpr ⟨?_, hdev⟩, heq⟩)
    rw [h.outstanding, List.mem_filter, heq]
    exact ⟨hmem, hk⟩

theorem Thinned.deliver (h : Thinned keep f f') (hd : f.deliver o k = some (cb, v, g))
    (hk : keep k = true) : ∃ g', f'.deliver o k = some (cb, v, g') ∧ Thinned keep g g' := by
  obtain ⟨hcb, hv, hn, hr, hc, ho, hobs, hi⟩ := deliver_eq_some hd
  have hn' : (o, k) ∉ f'.raised.map fun e => (e.observer, e.key) := by
    rw [h.raised]
    exact fun hmem => hn ((List.filter_sublist.map _).subset hmem)
  obtain ⟨g', hg⟩ := deliver_isSome (h.observers ▸ hcb) (h.visible hv hk) hn'
  obtain ⟨-, -, -, hr', hc', ho', hobs', hi'⟩ := deliver_eq_some hg
  exact ⟨g', hg, by rw [hc', hc, h.children], by rw [ho', ho, h.outstanding],
    by rw [hobs', hobs, h.observers], by simp [hr', hr, h.raised, hk],
    by rw [hi', hi]; exact h.issued⟩

theorem Thinned.deliver_dropped (h : Thinned keep f f') (hd : f.deliver o k = some (cb, v, g))
    (hk : keep k = false) : Thinned keep g f' := by
  obtain ⟨-, -, -, hr, hc, ho, hobs, hi⟩ := deliver_eq_some hd
  exact ⟨by rw [hc, h.children], by rw [ho, h.outstanding], by rw [hobs, h.observers],
    by simp [hr, h.raised, hk], by rw [hi]; exact h.issued⟩

end Feed

namespace Queues
variable [DecidableEq κ] [DecidableEq δ] [LinearOrder ρ]

/-- `q'` is `q` without the keys that are not kept. -/
structure Thinned (keep : κ → Bool) (q q' : Queues κ) : Prop where
  due : ∀ o, q'.due o = (q.due o).filter keep
  loading : q'.loading = q.loading

variable {rank : κ ↪ ρ} {keep : κ → Bool} {q q' p : Queues κ} {f f' g g' : Feed κ ν δ ω}
  {o n : ℕ} {k : κ}

omit [DecidableEq κ] [DecidableEq δ] in
theorem Thinned.reached (h : Thinned keep q q') (hf : Feed.Thinned keep f f') (o : ℕ) :
    q'.reached f' o = (q.reached f o).filter keep := by
  rw [Queues.reached, Queues.reached, List.filter_append, h.due, Feed.told, Feed.told, hf.raised,
    List.filter_map, List.filter_filter, List.filter_filter]
  simp only [Function.comp_def, Bool.and_comm]

theorem Thinned.follow (h : Thinned keep q q') (hf : Feed.Thinned keep f f')
    (hg : Feed.Thinned keep g g') (hw : ∀ o, written f' g' o = (written f g o).filter keep) :
    Thinned keep (q.follow f g) (q'.follow f' g') := by
  constructor
  · intro o
    simp [Queues.follow, h.due, hw]
  · simp [Queues.follow, h.loading, hf.observers, hg.observers, hf.children]

omit [DecidableEq κ] in
/-- Dropping keys and sorting the rest commute. -/
theorem filter_insertionSort (l : List κ) :
    (l.insertionSort (rank · ≤ rank ·)).filter keep =
      (l.filter keep).insertionSort (rank · ≤ rank ·) := by
  have hperm : ((l.insertionSort (rank · ≤ rank ·)).filter keep).Perm
      ((l.filter keep).insertionSort (rank · ≤ rank ·)) :=
    ((List.perm_insertionSort _ l).filter keep).trans (List.perm_insertionSort _ _).symm
  refine hperm.eq_of_pairwise (fun a b _ _ hab hba => rank.injective (le_antisymm hab hba)) ?_ ?_
  · exact (List.pairwise_insertionSort _ l).filter keep
  · exact List.pairwise_insertionSort (fun a b => rank a ≤ rank b) _

omit [DecidableEq δ] in
/-- The keys that are fresh in the thinner queues are the kept fresh ones. -/
theorem Thinned.fresh (h : Thinned keep q q') (hf : Feed.Thinned keep f f') (o : ℕ)
    (ks : List κ) : (ks.filter keep).filter (· ∉ q'.reached f' o) =
      (ks.filter (· ∉ q.reached f o)).filter keep := by
  rw [List.filter_filter, List.filter_filter, h.reached hf]
  refine List.filter_congr fun x _ => ?_
  by_cases hx : keep x = true <;> simp [List.mem_filter, hx]

omit [DecidableEq κ] in
theorem Thinned.own (hf : Feed.Thinned keep f f') (d : δ) : f'.own d = (f.own d).filter keep := by
  rw [Feed.own, Feed.own, hf.outstanding, List.filter_map, List.filter_filter, List.filter_filter]
  simp only [Function.comp_def, Bool.and_comm]

omit [DecidableEq κ] in
/-- Queueing keys for one observer in both. -/
theorem Thinned.enqueue (h : Thinned keep q q') {new new' : List κ}
    (hnew : new' = new.filter keep) {loading : ℕ → Option ℕ} :
    Thinned keep ⟨Function.update q.due o (q.due o ++ new), loading⟩
      ⟨Function.update q'.due o (q'.due o ++ new'), loading⟩ := by
  refine ⟨fun o' => ?_, rfl⟩
  by_cases he : o' = o
  · subst he
    simp [h.due, hnew]
  · simp [he, h.due]

theorem Thinned.load (h : Thinned keep q q') (hf : Feed.Thinned keep f f')
    (hkept : ∀ p ∈ f.children, keep p.1 = true) (hl : q.load rank f o n = some p) :
    ∃ p', q'.load rank f' o n = some p' ∧ Thinned keep p p' := by
  obtain ⟨cb, registered, ho, hr, hle, hn, rfl⟩ := load_eq_some hl
  have hkeys : (f'.children.take n).map Prod.fst ++ f'.own cb.device =
      ((f.children.take n).map Prod.fst ++ f.own cb.device).filter keep := by
    have hstored : ((f.children.take n).map Prod.fst).filter keep =
        (f.children.take n).map Prod.fst := by
      refine List.filter_eq_self.mpr fun x hx => ?_
      obtain ⟨y, hy, rfl⟩ := List.mem_map.mp hx
      exact hkept y (List.mem_of_mem_take hy)
    rw [List.filter_append, hstored, Thinned.own hf, hf.children]
  refine ⟨_, ?_, h.enqueue rfl⟩
  simp only [Queues.load, hf.observers, ho, h.loading, hr, hf.children, hle, hn, and_self, if_true]
  rw [← hf.children, hkeys, h.fresh hf, filter_insertionSort, hf.children]

omit [DecidableEq δ] in
/-- With stored children only under kept keys, the first one to arrive is the same. -/
theorem Thinned.arrive (h : Thinned keep q q') (hf : Feed.Thinned keep f f')
    (hkept : ∀ p ∈ f.children, keep p.1 = true) (ha : q.arrive f o = some p) :
    ∃ p', q'.arrive f' o = some p' ∧ Thinned keep p p' := by
  obtain ⟨k, ho, hl, hmem, hfind, -, rfl⟩ := arrive_eq_some ha
  obtain ⟨x, hx, rfl⟩ := List.mem_map.mp hmem
  have hsame : ∀ y ∈ f.children.map Prod.fst,
      decide (y ∉ q'.reached f' o) = decide (y ∉ q.reached f o) := by
    intro y hy
    obtain ⟨z, hz, rfl⟩ := List.mem_map.mp hy
    simp [h.reached hf, List.mem_filter, hkept z hz]
  have hfind' : (f'.children.map Prod.fst).find? (· ∉ q'.reached f' o) = some x.1 := by
    rw [hf.children, List.find?_congr hsame]
    exact hfind
  refine ⟨⟨Function.update q'.due o (q'.due o ++ [x.1]), q'.loading⟩, ?_, ?_⟩
  · rw [Queues.arrive, if_pos ⟨by rw [hf.observers]; exact ho, by rw [h.loading, hl]⟩, hfind',
      Option.map_some]
  · rw [h.loading]
    exact h.enqueue (by simp [hkept x hx])

omit [DecidableEq δ] in
theorem Thinned.hand (h : Thinned keep q q') (hh : q.hand o k = some p) (hk : keep k = true) :
    ∃ p', q'.hand o k = some p' ∧ Thinned keep p p' := by
  obtain ⟨rest, hdue, rfl⟩ := hand_eq_some hh
  have hdue' : q'.due o = k :: rest.filter keep := by
    rw [h.due, hdue, List.filter_cons_of_pos hk]
  refine ⟨⟨Function.update q'.due o (rest.filter keep), q'.loading⟩, ?_, ?_, h.loading⟩
  · rw [Queues.hand, hdue', List.head?_cons, if_pos rfl, List.tail_cons]
  · intro o'
    by_cases he : o' = o
    · subst he
      simp
    · simp [he, h.due]

omit [DecidableEq δ] in
theorem Thinned.hand_dropped (h : Thinned keep q q') (hh : q.hand o k = some p)
    (hk : keep k = false) : Thinned keep p q' := by
  obtain ⟨rest, hdue, rfl⟩ := hand_eq_some hh
  refine ⟨fun o' => ?_, h.loading⟩
  by_cases he : o' = o
  · subst he
    simp [h.due, hdue, hk]
  · simp [he, h.due]

end Queues

end LoopChat.ChildFeed
