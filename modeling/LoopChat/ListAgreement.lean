import LoopChat.DatabaseViews

/-!
# The lists of several clients

The newest observer of a list is registered when the list is emptied, so what it was raised is
what is listed. Once it was raised all that its client sees, the list has every community of the
tree, and what other clients list besides is their own and was not accepted.
-/
namespace LoopChat.SharedDatabase
open FirebaseValues PathStores TransitionRuns

variable {w w' : World} {c c' : ℕ} {a b : Write} {k name : String} {ok : Bool}

/-- The newest observer of the list was raised an event for every child its client sees. -/
structure World.CaughtUp (w : World) (c : ℕ) : Prop where
  appeared : 0 < (w.clients c).observers
  heard : ∀ k value, get ["communities", k] (w.view c) = some value →
    ((w.clients c).observers - 1, k) ∈ (w.clients c).raised

/-- What the newest observer was raised is listed under the name that is seen. -/
def ListsHeard (w : World) (c : ℕ) : Prop :=
  ∀ o k name, (w.clients c).observers = o + 1 → (o, k) ∈ (w.clients c).raised →
    Leaf (w.view c) ["communities", k, "CommunityName"] (.string name) →
      (w.clients c).Lists ⟨name, k⟩

theorem Extended.effective {new : List Write} (h : Extended w c new w')
    (ha : Effective w' c' a) : Effective w c' a ∨ c' = c ∧ a ∈ new := by
  rcases ha with ha | ha
  · exact Or.inl (Or.inl (h.answered ▸ ha))
  · exact (h.mem_unanswered ha).imp_left Or.inr

/-- A community that is created now was not created before. -/
theorem Extended.not_created {new : List Write} {fields fields' : Fields} {form form' : ℕ}
    (h : Extended w c new w') (hv : Valid w) (ha : .community k fields form ∈ new) :
    .community k fields' form' ∉ w.writes c' := by
  intro hmem
  obtain ⟨key, hfresh, -, hm⟩ := h.made _ ha
  cases hm with
  | community form named => exact hfresh (hv.issued c' _ hmem).1

theorem ListEffect.lists {client client' : Client} {view : Value} {act : LocalAct} {o : ℕ}
    (h : ListEffect client view act client')
    (hregistered : ∀ o k, (o, k) ∈ client.raised → o < client.observers)
    (hl : ∀ o, client.observers = o + 1 → (o, k) ∈ client.raised → client.Lists ⟨name, k⟩)
    (hleaf : Leaf view ["communities", k, "CommunityName"] (.string name))
    (ho : client'.observers = o + 1) (hmem : (o, k) ∈ client'.raised) :
    client'.Lists ⟨name, k⟩ := by
  cases h with
  | appeared =>
    -- the observer of this appearance was raised nothing yet
    obtain rfl : client.observers = o := Nat.succ.inj ho
    exact absurd (hregistered _ k hmem) (lt_irrefl _)
  | added seen registered due =>
    rw [Client.Lists, CommunityVC.childAdded_array]
    rcases List.mem_append.mp hmem with hold | hnew
    · exact List.mem_append_left _ (hl o ho hold)
    · obtain ⟨rfl, rfl⟩ := Prod.mk.inj (List.mem_singleton.mp hnew)
      exact List.mem_append_right _ (Option.mem_toList.mpr ((decode_iff seen).mpr hleaf))
  | chat same posts =>
    rw [Client.Lists, same.list]
    exact hl o (same.observers ▸ ho) (same.raised ▸ hmem)
  | signedIn | pushed | edited | createdNothing | created => exact hl o ho hmem

theorem ListsHeard.on (hl : ListsHeard w c') (hv : Valid w) (ht : Tracked w) (hv' : Valid w')
    {act : LocalAct} (hs : step w (.on c act) = some w') : ListsHeard w' c' := by
  obtain ⟨new, hext⟩ := step_extended hs
  obtain ⟨-, client, hclient, rfl⟩ := step_on hs
  have heffect := Client.step_list hclient
  intro o k name ho hmem hleaf
  obtain ⟨form, heff⟩ := hv'.named_iff.mp hleaf
  rw [setClient_clients] at ho hmem ⊢
  split_ifs at ho hmem ⊢ with hc
  · subst hc
    have hcreated : ∃ fields form, .community k fields form ∈ w.writes c' := by
      rcases heffect.raised hmem with hold | ⟨-, value, hseen⟩
      · exact ht.created c' o k hold
      · exact hv.created_of_seen ht.full hseen
    obtain ⟨fields, form', hcreated⟩ := hcreated
    rcases hext.effective heff with hold | ⟨-, hnew⟩
    · exact heffect.lists (ht.registered c') (fun o ho hmem => hl o k name ho hmem
        (hv.named_iff.mpr ⟨form, hold⟩)) (hv.named_iff.mpr ⟨form, hold⟩) ho hmem
    · exact absurd hcreated (hext.not_created hv hnew)
  · refine hl o k name ho hmem (hv.named_iff.mpr ⟨form, ?_⟩)
    exact (hext.effective heff).resolve_right fun h => hc h.1

/-- An answer makes a write effective only where it was not the client's own. -/
theorem Answered.effective {rest : List Write} (h : Answered w c ok b rest w')
    (ha : Effective w' c' a) : Effective w c' a ∨ c' ≠ c ∧ a = b := by
  rcases ha with ⟨c₀, hdone⟩ | hopen
  · rw [h.answered] at hdone
    rcases List.mem_append.mp hdone with hdone | hnew
    · exact Or.inl (Or.inl ⟨c₀, hdone⟩)
    · obtain ⟨-, rfl, -⟩ : c₀ = c ∧ a = b ∧ true = ok := by simpa using hnew
      by_cases hc : c' = c
      · exact Or.inl (Or.inr (by simp [hc, h.unanswered]))
      · exact Or.inr ⟨hc, rfl⟩
  · exact Or.inl (Or.inr (h.unanswered_subset c' hopen))

theorem ListsHeard.answer (hl : ListsHeard w c') (hv : Valid w) (ht : Tracked w)
    (hv' : Valid w') (hs : w.answer c ok = some w') : ListsHeard w' c' := by
  obtain ⟨b, rest, hans⟩ := answer_eq_some hs
  obtain ⟨hlist, hraised, hobservers, -⟩ := hans.same_list hs c'
  intro o k name ho hmem hleaf
  obtain ⟨form, heff⟩ := hv'.named_iff.mp hleaf
  rw [hobservers] at ho
  rw [hraised] at hmem
  rw [Client.Lists, hlist]
  refine hl o k name ho hmem (hv.named_iff.mpr ⟨form, ?_⟩)
  refine (hans.effective heff).resolve_right ?_
  rintro ⟨hne, rfl⟩
  -- what was raised was created before, at the path that is answered only now
  obtain ⟨fields, form', hcreated⟩ := ht.created c' o k hmem
  have hopen := hans.unanswered ▸ List.mem_cons_self
  exact hv.path_ne hne hcreated hopen rfl

theorem run_listsHeard {currentUser : ℕ → Option String} {as : List Act}
    (h : Run step (initial currentUser) as w) :
    Valid w ∧ Tracked w ∧ ∀ c, ListsHeard w c := by
  refine h.invariant (I := fun w => Valid w ∧ Tracked w ∧ ∀ c, ListsHeard w c) ?_ ?_
  · have hnil : Run step (initial currentUser) [] (initial currentUser) := .nil
    obtain ⟨hv, ht⟩ := run_tracked hnil
    exact ⟨hv, ht, by simp [ListsHeard, initial]⟩
  · rintro _ act _ ⟨hv, ht, hl⟩ hs
    have hv' := step_valid hv hs
    refine ⟨hv', step_tracked ht hv hs, fun c' => ?_⟩
    cases act with
    | on c act => exact (hl c').on hv ht hv' hs
    | accepted c => exact (hl c').answer hv ht hv' hs
    | rejected c => exact (hl c').answer hv ht hv' hs

/-! ### What is listed -/

variable {currentUser : ℕ → Option String} {as : List Act}

/-- On a client whose newest observer was raised all that it sees, every community that stands in
the tree is listed under its name, and of what other clients list only communities of their own
can be missing, which were rejected or are unanswered. -/
theorem lists_agree (h : Run step (initial currentUser) as w) (hc : w.CaughtUp c) :
    (∀ k name, Leaf w.root ["communities", k, "CommunityName"] (.string name) →
      (w.clients c).Lists ⟨name, k⟩) ∧
    ∀ c' community, (w.clients c').Lists community → (w.clients c).Lists community ∨
      ∃ form, creation community form ∈ (w.clients c').unanswered ∨
        (c', creation community form, false) ∈ w.answered := by
  obtain ⟨hv, ht, hl⟩ := run_listsHeard h
  have hlists : ∀ k name form, (∃ c', (c', .community k [("CommunityName", .string name)] form,
      true) ∈ w.answered) → (w.clients c).Lists ⟨name, k⟩ := by
    intro k name form hdone
    have hleaf : Leaf (w.view c) ["communities", k, "CommunityName"] (.string name) :=
      hv.named_iff.mpr ⟨form, Or.inl hdone⟩
    obtain ⟨value, hseen⟩ := get_of_leaf_append (p := ["communities", k]) hleaf
    obtain ⟨o, ho⟩ := Nat.exists_eq_succ_of_ne_zero hc.appeared.ne'
    have hheard := hc.heard k value hseen
    rw [ho, Nat.succ_sub_one] at hheard
    exact hl c o k name ho hheard hleaf
  constructor
  · intro k name hleaf
    obtain ⟨c', a, hdone, hputs⟩ := (hv.stored _ _).mp hleaf
    have hformed := hv.formed c a (mem_writes.mpr (Or.inl ⟨c', true, hdone⟩))
    obtain ⟨name', form, hx, rfl⟩ := hformed.creation_of_puts hputs
    obtain rfl : name = name' := by simpa using hx
    exact hlists k name form ⟨c', hdone⟩
  · intro c' community hlisted
    obtain ⟨form, hdone | hown⟩ := hv.known c' community (Or.inl hlisted)
    · exact Or.inl (hlists _ _ form hdone)
    · exact Or.inr ⟨form, hown⟩

/-- A community that both list, and one that its creator alone sees so far. -/
def listedByTwo : List Act :=
  [.on 0 .viewDidAppear, .on 0 .pushCreateCommunity, .on 0 (.editName 0 "Swift"),
    .on 0 (.createCommunityButton 0 "c"), .on 0 (.communityAdded 0 "c"), .accepted 0,
    .on 1 .viewDidAppear, .on 1 (.communityAdded 0 "c"), .on 0 (.editName 0 "Lean"),
    .on 0 (.createCommunityButton 0 "d"), .on 0 (.communityAdded 0 "d")]

theorem lists_agree_listedByTwo : ∃ w, Run step (initial fun _ => some "u") listedByTwo w ∧
    (w.clients 1).Lists ⟨"Swift", "c"⟩ ∧ ∃ form,
      creation ⟨"Lean", "d"⟩ form ∈ (w.clients 0).unanswered ∨
        (0, creation ⟨"Lean", "d"⟩ form, false) ∈ w.answered := by
  have hexec : (exec step (initial fun _ => some "u") listedByTwo).map (fun w => (w.root, w.view 1,
      (w.clients 1).observers, (w.clients 1).raised,
      (w.clients 0).list.arrayOfCommunities, (w.clients 1).list.arrayOfCommunities)) =
      some (.dict [("communities", .dict [("c", .dict [("CommunityName", .string "Swift")])])],
        .dict [("communities", .dict [("c", .dict [("CommunityName", .string "Swift")])])],
        1, [(0, "c")], [⟨"Swift", "c"⟩, ⟨"Lean", "d"⟩], [⟨"Swift", "c"⟩]) := rfl
  obtain ⟨w, hw, hlast⟩ := run_of_exec_map hexec
  simp only [Prod.mk.injEq] at hlast
  obtain ⟨hroot, hview, ho, hraised, hlist₀, hlist₁⟩ := hlast
  have hcaught : w.CaughtUp 1 := by
    refine ⟨by simp [ho], fun k value hget => ?_⟩
    rw [hview] at hget
    have hk : k = "c" := by
      by_contra hk
      have hbeq : (k == "c") = false := by simpa using hk
      simp [PathStores.get, child, Nested.asDict, Value.asDict, List.lookup, hbeq] at hget
    simp [ho, hraised, hk]
  have hagree := lists_agree hw hcaught
  have hlisted : (w.clients 0).Lists ⟨"Lean", "d"⟩ := by simp [Client.Lists, hlist₀]
  have hmissing : ¬ (w.clients 1).Lists ⟨"Lean", "d"⟩ := by simp [Client.Lists, hlist₁]
  refine ⟨w, hw, hagree.1 "c" "Swift" ⟨by rw [hroot]; rfl, rfl⟩, ?_⟩
  exact (hagree.2 0 _ hlisted).resolve_left hmissing

/-! ### Catching up -/

/-- The writes below keys that the newest observer was not raised yet. -/
def World.due (w : World) (c : ℕ) : List Write :=
  (w.writes c).filter fun a =>
    !(w.clients c).raised.contains ((w.clients c).observers - 1, a.under)

/-- An event that the newest observer of a client is raised. -/
def RaisesNewest (c : ℕ) (w : World) (act : Act) : Prop :=
  ∃ k, act = .on c (.communityAdded ((w.clients c).observers - 1) k)

theorem appeared_step {act : Act} (hs : step w act = some w')
    (h : 0 < (w.clients c).observers) : 0 < (w'.clients c).observers := by
  have hanswer : ∀ {c' : ℕ} {ok : Bool}, w.answer c' ok = some w' →
      0 < (w'.clients c).observers := by
    intro c' ok ha
    obtain ⟨b, rest, hans⟩ := answer_eq_some ha
    exact (hans.same_list ha c).2.2.1 ▸ h
  cases act with
  | on c' act =>
    obtain ⟨-, client, hclient, rfl⟩ := step_on hs
    rw [setClient_clients]
    split_ifs with hc
    · exact h.trans_le (hc ▸ (Client.step_list hclient).observers_le)
    · exact h
  | accepted c' => exact hanswer hs
  | rejected c' => exact hanswer hs

/-- While something is seen that the newest observer was not raised, it can be, and then less is
due. -/
theorem due_lt (hv : Valid w) (ht : Tracked w) (ho : 0 < (w.clients c).observers)
    (h : ¬ w.CaughtUp c) : ∃ act w', RaisesNewest c w act ∧ step w act = some w' ∧
      (w'.due c).length < (w.due c).length := by
  obtain ⟨k, value, hseen, hdue⟩ : ∃ k value,
      get ["communities", k] (w.view c) = some value ∧
        ((w.clients c).observers - 1, k) ∉ (w.clients c).raised := by
    by_contra hnone
    push Not at hnone
    exact h ⟨ho, hnone⟩
  obtain ⟨fields, form, hcreated⟩ := hv.created_of_seen ht.full hseen
  have hlt : (w.clients c).observers - 1 < (w.clients c).observers := Nat.sub_one_lt_of_lt ho
  let client : Client := { w.clients c with
    list := ((w.clients c).list.childAdded k value).1
    raised := (w.clients c).raised ++ [((w.clients c).observers - 1, k)] }
  have hclient : (w.clients c).step (w.view c) (.communityAdded ((w.clients c).observers - 1) k)
      = some client := by
    simp [Client.step, hseen, hlt, hdue, client]
  refine ⟨_, w.setClient c client [], ⟨k, rfl⟩, by simp [step, LocalAct.key, hclient,
    World.setClient], ?_⟩
  have hleft : (w.setClient c client []).due c = (w.due c).filter fun a => a.under ≠ k := by
    have hwrites : (w.setClient c client []).writes c = w.writes c := by
      simp [World.writes, World.setClient, client]
    rw [World.due, World.due, hwrites, List.filter_filter]
    refine List.filter_congr fun a _ => ?_
    simp [client, Bool.and_comm]
  rw [hleft]
  refine List.length_filter_lt_length_iff_exists.mpr ⟨_, List.mem_filter.mpr ⟨hcreated, ?_⟩, ?_⟩
  · simpa [Write.under] using hdue
  · simp [Write.under]

/-- A client whose list has appeared catches up by the events that its newest observer is due,
no more of them than there are writes, and whatever else happens in between or not. -/
theorem catches_up (h : Run step (initial currentUser) as w)
    (ho : 0 < (w.clients c).observers) :
    ∃ bs w', Run step w bs w' ∧ Along step w (RaisesNewest c) bs ∧
      bs.length ≤ (w.writes c).length ∧ w'.CaughtUp c := by
  have hstep : ∀ s : World,
      ¬ (Valid s → Tracked s → 0 < (s.clients c).observers → s.CaughtUp c) →
        ∃ act t, RaisesNewest c s act ∧ step s act = some t ∧
          (t.due c).length < (s.due c).length := by
    intro s hnot
    push Not at hnot
    obtain ⟨hv, ht, ho, hnot⟩ := hnot
    exact due_lt hv ht ho hnot
  obtain ⟨bs, w', hrun, halong, hlen, hw'⟩ := exists_run_to_rest hstep w
  obtain ⟨hv', ht'⟩ := run_tracked (h.append hrun)
  refine ⟨bs, w', hrun, halong, hlen.trans (List.length_filter_le _ _), hw' hv' ht' ?_⟩
  exact hrun.invariant (I := fun w => 0 < (w.clients c).observers) ho
    fun hI hs => appeared_step hs hI

theorem catches_up_listedByTwo : ∃ w, Run step (initial fun _ => some "u") listedByTwo w ∧
    ∃ bs w', Run step w bs w' ∧ Along step w (RaisesNewest 0) bs ∧ bs.length ≤ 2 ∧
      w'.CaughtUp 0 := by
  have hexec : (exec step (initial fun _ => some "u") listedByTwo).map
      (fun w => ((w.clients 0).observers, (w.writes 0).length)) = some (1, 2) := rfl
  obtain ⟨w, hw, hlast⟩ := run_of_exec_map hexec
  obtain ⟨ho, hlen⟩ := Prod.mk.inj hlast
  have hcatch := catches_up (c := 0) hw (ho ▸ Nat.one_pos)
  rw [hlen] at hcatch
  exact ⟨w, hw, hcatch⟩

end LoopChat.SharedDatabase
