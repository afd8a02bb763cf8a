import LoopChat.CommunityListSystem

/-!
# When the community list is exact

`viewDidAppear` empties the array and registers a further observer, but the observers of
earlier appearances stay. The list is exact precisely when those had nothing left to say.
-/
namespace LoopChat.CommunityListSystem
open FirebaseValues ChildFeed TransitionRuns

/-- Every child with a string `CommunityName` is listed exactly once, by name and key. -/
def Exact (w : World) : Prop :=
  ∀ k v community, (k, v) ∈ w.communities.visible () → decodeCommunity k v = some community →
    w.root.arrayOfCommunities.count community = 1

/-- In `before`, every observer had been raised the event of every named child that is
there in `w`. -/
def CaughtUp (before w : World) : Prop :=
  ∀ o < before.communities.observers.length, ∀ k v, (k, v) ∈ w.communities.visible () →
    (decodeCommunity k v).isSome →
      (o, k) ∈ before.communities.raised.map fun e => (e.observer, e.key)

/-- After the last appearance the array lists the events raised since. -/
theorem run_since_appearance {before w : World} {post : List Act}
    (h : Run step before (.viewDidAppear :: post) w) (hpost : Act.viewDidAppear ∉ post) :
    w.communities.observers = before.communities.observers ++ [⟨(), .root⟩] ∧
      ∃ new, w.communities.raised = before.communities.raised ++ new ∧
        w.root.arrayOfCommunities = new.filterMap fun e => decodeCommunity e.key e.value := by
  obtain ⟨w₁, hw₁, hrun⟩ := run_cons_iff.mp h
  rw [step_viewDidAppear] at hw₁
  obtain rfl := Option.some.inj hw₁
  refine hrun.invariant_along (C := fun _ a => a ≠ .viewDidAppear)
    (I := fun w => w.communities.observers = before.communities.observers ++ [⟨(), .root⟩] ∧
      ∃ new, w.communities.raised = before.communities.raised ++ new ∧
        w.root.arrayOfCommunities = new.filterMap fun e => decodeCommunity e.key e.value)
    (Along.of_forall fun a ha _ => by rintro rfl; exact hpost ha) ⟨rfl, [], by simp, rfl⟩ ?_
  rintro t a u ⟨hobs, new, hr, harr⟩ ha hstep
  obtain ⟨hobs', more, hr', harr'⟩ := step_between hstep ha
  exact ⟨hobs'.trans hobs, new ++ more, by rw [hr', hr, List.append_assoc],
    by rw [harr', harr, List.filterMap_append]⟩

/-- The number of entries of a visible child is the number of its events since. -/
theorem count_entries {f : Feed String Value Unit Owner} {old new : List (Event String Value)}
    {k : String} {v : Value} {community : Community} (hr : f.raised = old ++ new)
    (hk : (k, v) ∈ f.known) (hd : decodeCommunity k v = some community) :
    (new.filterMap fun e => decodeCommunity e.key e.value).count community =
      (Feed.observersOf new k).length := by
  rw [List.count_filterMap, Feed.observersOf, List.length_map, ← List.countP_eq_length_filter]
  refine List.countP_congr fun e he => ?_
  rw [beq_iff_eq, decide_eq_true_eq]
  constructor
  · intro he
    obtain ⟨-, -, -, hid⟩ := decodeCommunity_eq_some.mp he
    obtain ⟨-, -, -, hid'⟩ := decodeCommunity_eq_some.mp hd
    exact hid.symm.trans hid'
  · rintro rfl
    have hmem : e ∈ f.raised := hr ▸ List.mem_append_right _ he
    rw [← f.raised_value e hmem v hk]
    exact hd

/-- Exactly when the list is right: after any run, with nothing undelivered, it is exact if
and only if the observers of all appearances but the last had been raised, by then, every
named community that is there at the end. -/
theorem exact_iff_caughtUp {currentUser : Option String} {as pre post : List Act}
    {before w : World} (h : Run step (initial currentUser) as w) (hq : w.communities.Quiescent)
    (hsplit : as = pre ++ .viewDidAppear :: post) (hpost : Act.viewDidAppear ∉ post)
    (hpre : Run step (initial currentUser) pre before) : Exact w ↔ CaughtUp before w := by
  subst hsplit
  obtain ⟨hobs, new, hr, harr⟩ := run_since_appearance (h.rest hpre) hpost
  have honce : ∀ k v community, (k, v) ∈ w.communities.visible () →
      decodeCommunity k v = some community →
      (w.root.arrayOfCommunities.count community = 1 ↔
        ∀ o < before.communities.observers.length,
          (o, k) ∈ before.communities.raised.map fun e => (e.observer, e.key)) := by
    intro k v community hk hd
    rw [harr, count_entries hr (Feed.visible_subset_known _ _ hk) hd]
    exact Feed.raised_once_since_iff hq hr (by simp [hobs]) before.communities.raised_observer
      (fun _ _ => hk)
  constructor
  · intro hexact o ho k v hk hnamed
    obtain ⟨community, hd⟩ := Option.isSome_iff_exists.mp hnamed
    exact (honce k v community hk hd).mp (hexact k v community hk hd) o ho
  · intro hcaught k v community hk hd
    exact (honce k v community hk hd).mpr fun o ho => hcaught o ho k v hk (by simp [hd])

/-- The list appears again after the first observer was raised the only community there is. -/
def caughtUpAppearance : List Act :=
  [.viewDidAppear, .otherClient "k" (.dict [("CommunityName", .string "Swift")]),
    .childAdded 0 "k", .viewDidAppear, .childAdded 1 "k"]

/-- The list appears again, say after a visit to the settings, before the community is added. -/
def secondAppearance : List Act :=
  [.viewDidAppear, .viewDidAppear, .otherClient "k" (.dict [("CommunityName", .string "Swift")]),
    .childAdded 0 "k", .childAdded 1 "k"]

theorem quiescent_of_eq {f : Feed String Value Unit Owner} {n : ℕ} {k : String} {v : Value}
    (hlen : f.observers.length = n) (hvis : f.visible () = [(k, v)])
    (hall : ∀ o < n, (o, k) ∈ f.raised.map fun e => (e.observer, e.key)) : f.Quiescent := by
  intro o cb ho p hp
  obtain rfl : p = (k, v) := by simpa [hvis] using hp
  exact hall o (hlen ▸ (List.getElem?_eq_some_iff.mp ho).1)

theorem caughtUpAppearance_exact :
    ∃ w, Run step (initial (some "u")) caughtUpAppearance w ∧ Exact w := by
  have hbefore : (exec step (initial (some "u")) (caughtUpAppearance.take 3)).map (fun w =>
      (w.communities.observers.length,
        w.communities.raised.map fun e => (e.observer, e.key))) = some (1, [(0, "k")]) := rfl
  have hend : (exec step (initial (some "u")) caughtUpAppearance).map (fun w =>
      (w.communities.observers.length, w.communities.visible (),
        w.communities.raised.map fun e => (e.observer, e.key))) =
      some (2, [("k", .dict [("CommunityName", .string "Swift")])], [(0, "k"), (1, "k")]) := rfl
  obtain ⟨before, hpre, hone⟩ := run_of_exec_map hbefore
  obtain ⟨w, hw, heq⟩ := run_of_exec_map hend
  obtain ⟨hobservers, hcaught⟩ := Prod.mk.inj hone
  obtain ⟨hlen, hvis, hraised⟩ := by simpa only [Prod.mk.injEq] using heq
  have hq : w.communities.Quiescent := quiescent_of_eq hlen hvis (by rw [hraised]; decide)
  refine ⟨w, hw, (exact_iff_caughtUp hw hq
    (show caughtUpAppearance = caughtUpAppearance.take 3 ++ .viewDidAppear :: _ from rfl)
    (by simp) hpre).mpr ?_⟩
  intro o ho k v hk _
  obtain rfl : o = 0 := by omega
  obtain ⟨rfl, -⟩ : k = "k" ∧ _ := by simpa [hvis] using hk
  simp [hcaught]

/-- The observer of the first appearance is still there: the new community is listed twice. -/
theorem second_appearance_not_exact : ¬ ∀ currentUser as w,
    Run step (initial currentUser) as w → Act.viewDidAppear ∈ as → (∀ i, Act.rejected i ∉ as) →
      w.communities.Quiescent → Exact w := by
  intro hall
  have hend : (exec step (initial (some "u")) secondAppearance).map (fun w =>
      (w.communities.observers.length, w.communities.visible (),
        (w.communities.raised.map fun e => (e.observer, e.key)), w.root.arrayOfCommunities)) =
      some (2, [("k", .dict [("CommunityName", .string "Swift")])], [(0, "k"), (1, "k")],
        [⟨"Swift", "k"⟩, ⟨"Swift", "k"⟩]) := rfl
  obtain ⟨w, hw, heq⟩ := run_of_exec_map hend
  obtain ⟨hlen, hvis, hraised, harr⟩ := by simpa only [Prod.mk.injEq] using heq
  have hq : w.communities.Quiescent := quiescent_of_eq hlen hvis (by rw [hraised]; decide)
  have hexact := hall _ secondAppearance w hw (by simp [secondAppearance])
    (by simp [secondAppearance]) hq "k" (.dict [("CommunityName", .string "Swift")])
    ⟨"Swift", "k"⟩ (by rw [hvis]; simp) rfl
  rw [harr] at hexact
  exact absurd hexact (by decide)

end LoopChat.CommunityListSystem
