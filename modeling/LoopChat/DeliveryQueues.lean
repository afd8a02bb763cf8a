import LoopChat.ChildFeed
import LoopChat.GrowingLogs

/-!
# In which order children reach an observer

A new observer waits for its load: the children stored at some moment since it registered,
in the order of their keys. From then on each new child follows in the order in which the
server stored it. A write of the observer's own device does not wait for the server: it
reaches the observer at once. What has reached an observer is handed out in that order.
-/
namespace LoopChat.ChildFeed
open TransitionRuns

/-- What has reached an observer and is not yet handed out, and, for an observer that waits
for its load, how many children were stored when it registered. -/
structure Queues (κ : Type*) where
  due : ℕ → List κ
  loading : ℕ → Option ℕ

variable {κ ν δ ω ρ : Type*}

namespace Feed
variable [DecidableEq δ]

/-- The keys handed to an observer, oldest first. -/
def told (f : Feed κ ν δ ω) (o : ℕ) : List κ :=
  (f.raised.filter fun e => e.observer = o).map Event.key

/-- The keys of the unanswered writes of a device. -/
def own (f : Feed κ ν δ ω) (d : δ) : List κ :=
  (f.outstanding.filter fun p => p.1.device = d).map fun p => p.2.1

theorem own_issued {f : Feed κ ν δ ω} {d : δ} {k : κ} (h : k ∈ f.own d) : k ∈ f.issued := by
  obtain ⟨p, hp, rfl⟩ := List.mem_map.mp h
  exact f.known_issued p.2
    (List.mem_append_right _ (List.mem_map_of_mem (List.mem_of_mem_filter hp)))

theorem own_append {f g : Feed κ ν δ ω} {cb : Callback δ ω} {k : κ} {v : ν}
    (h : g.outstanding = f.outstanding ++ [(cb, k, v)]) (d : δ) :
    g.own d = f.own d ++ if cb.device = d then [k] else [] := by
  by_cases hd : cb.device = d <;> simp [own, h, hd]

end Feed

namespace Queues
variable [DecidableEq κ] [DecidableEq δ] [LinearOrder ρ] (rank : κ ↪ ρ)

def empty : Queues κ := ⟨fun _ => [], fun _ => none⟩

/-- Everything that has reached an observer, in order. -/
def reached (q : Queues κ) (f : Feed κ ν δ ω) (o : ℕ) : List κ := f.told o ++ q.due o

/-- The writes of the observer's device in `g` that were not issued yet in `f`. -/
def written (f g : Feed κ ν δ ω) (o : ℕ) : List κ :=
  ((g.observers[o]?).toList.flatMap fun cb => g.own cb.device).filter (· ∉ f.issued)

/-- The queues after a device turned `f` into `g`: new observers wait for their load, and new
writes have reached the observers of their device. -/
def follow (q : Queues κ) (f g : Feed κ ν δ ω) : Queues κ where
  due o := q.due o ++ written f g o
  loading o := if f.observers.length ≤ o ∧ o < g.observers.length
    then some f.children.length else q.loading o

/-- The load of an observer comes with the first `n` stored children; what of it has not
reached the observer yet does so in the order of the keys. -/
def load (q : Queues κ) (f : Feed κ ν δ ω) (o n : ℕ) : Option (Queues κ) :=
  match f.observers[o]?, q.loading o with
  | some cb, some registered =>
    if registered ≤ n ∧ n ≤ f.children.length then
      let keys := (f.children.take n).map Prod.fst ++ f.own cb.device
      let new := (keys.filter (· ∉ q.reached f o)).insertionSort (rank · ≤ rank ·)
      some ⟨Function.update q.due o (q.due o ++ new), Function.update q.loading o none⟩
    else none
  | _, _ => none

/-- The first stored child that has not reached an observer does so, after its load. -/
def arrive (q : Queues κ) (f : Feed κ ν δ ω) (o : ℕ) : Option (Queues κ) :=
  if o < f.observers.length ∧ q.loading o = none then
    ((f.children.map Prod.fst).find? (· ∉ q.reached f o)).map fun k =>
      { q with due := Function.update q.due o (q.due o ++ [k]) }
  else none

/-- The first due event of an observer is handed out. -/
def hand (q : Queues κ) (o : ℕ) (k : κ) : Option (Queues κ) :=
  if (q.due o).head? = some k then
    some { q with due := Function.update q.due o (q.due o).tail }
  else none

/-- What has reached an observer was issued, and the observer is registered. -/
structure Sound (q : Queues κ) (f : Feed κ ν δ ω) : Prop where
  issued : ∀ o, ∀ k ∈ q.reached f o, k ∈ f.issued
  observer : ∀ o, q.reached f o ≠ [] → o < f.observers.length

variable {rank} {q q' : Queues κ} {f g : Feed κ ν δ ω} {cb : Callback δ ω} {o n : ℕ} {k : κ} {v : ν}

theorem load_eq_some (h : q.load rank f o n = some q') :
    ∃ cb registered, f.observers[o]? = some cb ∧ q.loading o = some registered ∧
      registered ≤ n ∧ n ≤ f.children.length ∧
      q' = ⟨Function.update q.due o (q.due o ++ (((f.children.take n).map Prod.fst ++
        f.own cb.device).filter (· ∉ q.reached f o)).insertionSort (rank · ≤ rank ·)),
        Function.update q.loading o none⟩ := by
  unfold load at h
  split at h
  · rename_i cb registered ho hr
    split_ifs at h with hn
    exact ⟨cb, registered, ho, hr, hn.1, hn.2, (Option.some.inj h).symm⟩
  · cases h

omit [DecidableEq δ] in
theorem arrive_eq_some (h : q.arrive f o = some q') :
    ∃ k, o < f.observers.length ∧ q.loading o = none ∧ k ∈ f.children.map Prod.fst ∧
      (f.children.map Prod.fst).find? (· ∉ q.reached f o) = some k ∧ k ∉ q.reached f o ∧
      q' = { q with due := Function.update q.due o (q.due o ++ [k]) } := by
  unfold arrive at h
  split_ifs at h with ho
  obtain ⟨k, hk, rfl⟩ := Option.map_eq_some_iff.mp h
  exact ⟨k, ho.1, ho.2, List.mem_of_find?_eq_some hk, hk, by simpa using List.find?_some hk, rfl⟩

theorem hand_eq_some (h : q.hand o k = some q') :
    ∃ rest, q.due o = k :: rest ∧ q' = { q with due := Function.update q.due o rest } := by
  unfold hand at h
  split_ifs at h with hk
  obtain ⟨rest, hrest⟩ := List.head?_eq_some_iff.mp hk
  exact ⟨rest, hrest, by rw [← Option.some.inj h, hrest, List.tail_cons]⟩

omit [DecidableEq κ] in
/-- Sorting keys by rank is strict on distinct keys. -/
theorem insertionSort_rank_lt {l : List κ} (h : l.Nodup) :
    (l.insertionSort (rank · ≤ rank ·)).Pairwise (rank · < rank ·) := by
  have hsorted := List.pairwise_insertionSort (fun a b => rank a ≤ rank b) l
  have hnodup : (l.insertionSort (rank · ≤ rank ·)).Nodup :=
    (List.perm_insertionSort _ l).nodup_iff.mpr h
  exact (List.pairwise_and_iff.mpr ⟨hsorted, hnodup⟩).imp fun {a b} hab =>
    lt_of_le_of_ne hab.1 fun heq => hab.2 (rank.injective heq)

/-! ### What reaches an observer in one step -/

/-- From `q` over `f` to `q'` over `g` each observer is reached by some further children, by
none of them for the second time, and by those of one step in the order of the keys. -/
def Advance (rank : κ ↪ ρ) (q : Queues κ) (f : Feed κ ν δ ω) (q' : Queues κ)
    (g : Feed κ ν δ ω) : Prop :=
  ∀ o, ∃ new, q'.reached g o = q.reached f o ++ new ∧ new.Pairwise (rank · < rank ·) ∧
    (∀ k ∈ new, k ∉ q.reached f o ∧ k ∈ g.issued) ∧ (new ≠ [] → o < g.observers.length)

omit [DecidableEq κ] [DecidableEq δ] in
theorem Advance.grown (h : Advance rank q f q' g) (o : ℕ) :
    Grown (rank · < rank ·) (q.reached f o) (q'.reached g o) := by
  obtain ⟨new, heq, hsorted, hnew, -⟩ := h o
  exact ⟨new, heq, hsorted, fun k hk => (hnew k hk).1⟩

omit [DecidableEq κ] [DecidableEq δ] in
theorem Sound.advance (hs : Sound q f) (h : Advance rank q f q' g) (hi : f.issued ⊆ g.issued)
    (hl : f.observers.length ≤ g.observers.length) : Sound q' g := by
  constructor
  · intro o k hk
    obtain ⟨new, heq, -, hnew, -⟩ := h o
    rw [heq] at hk
    rcases List.mem_append.mp hk with hk | hk
    · exact hi (hs.issued o k hk)
    · exact (hnew k hk).2
  · intro o hne
    obtain ⟨new, heq, -, -, hlt⟩ := h o
    rw [heq] at hne
    by_cases hold : q.reached f o = []
    · exact hlt fun hn => hne (by simp [hold, hn])
    · exact (hs.observer o hold).trans_le hl

omit [DecidableEq κ] [DecidableEq δ] in
/-- Nothing reaches an observer when events and queues stay as they are. -/
theorem advance_of_same (h : q'.reached g = q.reached f) : Advance rank q f q' g := by
  intro o
  exact ⟨[], by simp [h], .nil, by simp, by simp⟩

theorem mem_written (hk : k ∈ written f g o) :
    o < g.observers.length ∧ k ∈ g.issued ∧ k ∉ f.issued := by
  obtain ⟨hown, hnew⟩ := List.mem_filter.mp hk
  obtain ⟨cb, hcb, hown⟩ := List.mem_flatMap.mp hown
  exact ⟨(List.getElem?_eq_some_iff.mp (Option.mem_toList.mp hcb)).1, Feed.own_issued hown,
    by simpa using hnew⟩

/-- The writes that were there before were issued before. -/
theorem written_eq_nil (h : g.outstanding = f.outstanding) : written f g o = [] := by
  rw [written, List.filter_eq_nil_iff]
  intro k hk
  obtain ⟨cb, -, hown⟩ := List.mem_flatMap.mp hk
  have hf : k ∈ f.own cb.device := by
    rwa [Feed.own, h] at hown
  simpa using Feed.own_issued hf

/-- A write reaches the observers of its device. -/
theorem written_write (h : f.write cb k v = some g) :
    written f g o = if (f.observers[o]?).map Callback.device = some cb.device then [k] else [] := by
  obtain ⟨hk, -, hout, hobs, -⟩ := Feed.write_eq_some h
  have hold : ∀ d, (f.own d).filter (· ∉ f.issued) = [] := fun d =>
    List.filter_eq_nil_iff.mpr fun x hx => by simpa using Feed.own_issued hx
  rw [written, hobs]
  cases f.observers[o]? with
  | none => simp
  | some c =>
    rw [Option.toList_some, List.flatMap_singleton, Feed.own_append hout, List.filter_append, hold]
    by_cases hd : cb.device = c.device
    · simp [hd, hk]
    · simp [hd, Ne.symm hd]

theorem reached_follow (hr : g.raised = f.raised) :
    (q.follow f g).reached g o = q.reached f o ++ written f g o := by
  simp [reached, follow, Feed.told, hr]

/-- What a device does brings its observers its own new write at most. -/
theorem advance_follow (hs : Sound q f) (hr : g.raised = f.raised)
    (hone : ∀ o, (written f g o).length ≤ 1) : Advance rank q f (q.follow f g) g := by
  intro o
  refine ⟨written f g o, reached_follow hr, ?_, ?_, ?_⟩
  · have hcases := Nat.le_one_iff_eq_zero_or_eq_one.mp (hone o)
    rw [List.length_eq_zero_iff, List.length_eq_one_iff] at hcases
    rcases hcases with hnil | ⟨k, hk⟩
    · simp [hnil]
    · simp [hk]
  · intro k hk
    obtain ⟨-, hissued, hnew⟩ := mem_written hk
    exact ⟨fun hold => hnew (hs.issued o k hold), hissued⟩
  · intro hne
    obtain ⟨k, hk⟩ := List.exists_mem_of_ne_nil _ hne
    exact (mem_written hk).1

theorem advance_same_outstanding (hs : Sound q f) (hr : g.raised = f.raised)
    (ho : g.outstanding = f.outstanding) : Advance rank q f (q.follow f g) g :=
  advance_follow hs hr fun o => by simp [written_eq_nil ho]

theorem advance_write (hs : Sound q f) (h : f.write cb k v = some g) :
    Advance rank q f (q.follow f g) g := by
  obtain ⟨-, -, -, -, hr, -⟩ := Feed.write_eq_some h
  refine advance_follow hs hr fun o => ?_
  rw [written_write h]
  split_ifs <;> simp

omit [DecidableEq κ] [DecidableEq δ] in
/-- Queueing some fresh sorted keys for one observer. -/
theorem advance_enqueue {new : List κ} {loading : ℕ → Option ℕ} (ho : o < f.observers.length)
    (hsorted : new.Pairwise (rank · < rank ·))
    (hnew : ∀ k ∈ new, k ∉ q.reached f o ∧ k ∈ f.issued) :
    Advance rank q f ⟨Function.update q.due o (q.due o ++ new), loading⟩ f := by
  intro o'
  by_cases he : o' = o
  · subst he
    exact ⟨new, by simp [reached], hsorted, hnew, fun _ => ho⟩
  · exact ⟨[], by simp [reached, he], .nil, by simp, by simp⟩

theorem advance_load (h : q.load rank f o n = some q') : Advance rank q f q' f := by
  obtain ⟨cb, registered, ho, -, -, -, rfl⟩ := load_eq_some h
  have hsub : ((f.children.take n) ++
      (f.outstanding.filter fun p => p.1.device = cb.device).map Prod.snd).Sublist f.known :=
    (List.take_sublist _ _).append (List.filter_sublist.map Prod.snd)
  have hkeys : (f.children.take n).map Prod.fst ++ f.own cb.device = ((f.children.take n) ++
      (f.outstanding.filter fun p => p.1.device = cb.device).map Prod.snd).map Prod.fst := by
    simp [Feed.own]
  have hnodup : ((f.children.take n).map Prod.fst ++ f.own cb.device).Nodup :=
    hkeys ▸ (hsub.map Prod.fst).nodup f.known_nodup
  refine advance_enqueue (List.getElem?_eq_some_iff.mp ho).1
    (insertionSort_rank_lt (hnodup.filter _)) fun k hk => ?_
  obtain ⟨hmem, hfresh⟩ := List.mem_filter.mp ((List.mem_insertionSort _).mp hk)
  rw [hkeys] at hmem
  obtain ⟨p, hp, rfl⟩ := List.mem_map.mp hmem
  exact ⟨by simpa using hfresh, f.known_issued p (hsub.subset hp)⟩

omit [DecidableEq δ] in
theorem advance_arrive (h : q.arrive f o = some q') : Advance rank q f q' f := by
  obtain ⟨k, ho, -, hk, -, hfresh, rfl⟩ := arrive_eq_some h
  obtain ⟨p, hp, rfl⟩ := List.mem_map.mp hk
  refine advance_enqueue ho (List.pairwise_singleton _ _) fun x hx => ?_
  rw [List.mem_singleton.mp hx]
  exact ⟨hfresh, f.known_issued p (List.mem_append_left _ hp)⟩

/-- Handing out an event moves it to what the observer was told. -/
theorem advance_hand (h : q.hand o k = some q')
    (hd : f.deliver o k = some (cb, v, g)) : Advance rank q f q' g := by
  obtain ⟨rest, hdue, rfl⟩ := hand_eq_some h
  obtain ⟨-, -, -, hr, -⟩ := Feed.deliver_eq_some hd
  refine advance_of_same (funext fun o' => ?_)
  by_cases he : o' = o
  · subst he
    simp [reached, Feed.told, hr, hdue]
  · simp [reached, Feed.told, hr, he, Ne.symm he]

end Queues

end LoopChat.ChildFeed
