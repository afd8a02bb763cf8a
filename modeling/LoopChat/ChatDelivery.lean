import LoopChat.ChatFeed

/-!
# Delivery to chat screens

Provenance, completeness and multiplicity of the entries of `messageArr`, over every run.
-/
namespace LoopChat.ChatSystem
open FirebaseValues ChildFeed TransitionRuns

/-- Only an appearance changes the observers of a location, and it adds one. -/
theorem step_observers {w w' : World} {a : Act} (h : step w a = some w') (c : String) :
    (w'.messages c).observers = (w.messages c).observers ∨
      ∃ s screen, a = .viewDidAppear s ∧ w.screens[s]? = some screen ∧
        screen.vc.community.map Community.communityID = some c ∧
        w'.messages c = (w.messages c).observe ⟨screen.client, s⟩ := by
  cases step_effect h with
  | signedIn | usersWritten | opened | sentNothing | nameServed | popped | edited
  | nameAnswered => exact Or.inl rfl
  | @appeared s screen userid hs _ =>
    rw [appeared_messages]
    split_ifs with hc
    · exact Or.inr ⟨s, screen, rfl, hs, hc, rfl⟩
    · exact Or.inl rfl
  | sent _ _ _ _ hw =>
    obtain ⟨-, -, -, ho, -⟩ := Feed.write_eq_some hw
    exact Or.inl (setFeed_observers ho c)
  | inserted hi =>
    obtain ⟨-, -, -, ho, -⟩ := Feed.insert_eq_some hi
    exact Or.inl (setFeed_observers ho c)
  | accepted ha _ =>
    obtain ⟨_, -, -, -, ho, -⟩ := Feed.accept_eq_some ha
    exact Or.inl (setFeed_observers ho c)
  | rejected hj _ =>
    obtain ⟨_, -, -, -, ho, -⟩ := Feed.reject_eq_some hj
    exact Or.inl (setFeed_observers ho c)
  | delivered hd _ =>
    obtain ⟨-, -, -, -, -, -, ho, -⟩ := Feed.deliver_eq_some hd
    exact Or.inl (setFeed_observers ho c)

/-! ## Multiplicity -/

/-- No child has more than one entry in the array of screen `s`. -/
def NoDuplicates (w : World) (s : ℕ) : Prop :=
  ∀ screen community, w.screens[s]? = some screen → screen.vc.community = some community →
    ((appended w community.communityID s).map Prod.fst).Nodup

/-- `viewDidAppear` runs on screen `s` only while `s` has no observer. -/
def AppearsUnobserved (s : ℕ) (w : World) (a : Act) : Prop :=
  a = .viewDidAppear s → ∀ c, ∀ cb ∈ (w.messages c).observers, cb.owner ≠ s

theorem appended_keys_sublist (w : World) (c : String) (s : ℕ) :
    ((appended w c s).map Prod.fst).Sublist (((w.messages c).eventsOf s).map Event.key) := by
  rw [appended, List.map_filterMap]
  induction (w.messages c).eventsOf s with
  | nil => simp
  | cons e es ih =>
    cases hd : decodeMessage e.value with
    | none => simpa [List.filterMap_cons, hd] using ih.cons e.key
    | some message => simpa [List.filterMap_cons, hd] using ih

theorem atMostOneObserver_step {w w' : World} {a : Act} {s : ℕ}
    (h : ∀ c, (w.messages c).AtMostOneObserver s) (hc : AppearsUnobserved s w a)
    (hstep : step w a = some w') (c : String) : (w'.messages c).AtMostOneObserver s := by
  rcases step_observers hstep c with ho | ⟨s', screen, rfl, -, -, hw⟩
  · unfold Feed.AtMostOneObserver
    rw [ho]
    exact h c
  · rw [hw]
    refine Feed.atMostOneObserver_observe (h c) fun heq => ?_
    obtain rfl : s' = s := heq
    exact hc rfl c

variable {currentUser : ℕ → Option String} {users : String → Option Fields}
  {as : List Act} {w : World} {s : ℕ}

/-- A screen that appears once shows each child at most once, whatever else happens. -/
theorem appears_once_no_duplicates (h : Run step (initial currentUser users) as w)
    (hc : Along step (initial currentUser users) (AppearsUnobserved s) as) :
    (∀ screen community, w.screens[s]? = some screen → screen.vc.community = some community →
      screen.vc.messageArr = (appended w community.communityID s).map Prod.snd) ∧
    NoDuplicates w s := by
  have hone : ∀ c, (w.messages c).AtMostOneObserver s :=
    h.invariant_along (I := fun w => ∀ c, (w.messages c).AtMostOneObserver s) hc
      (fun c => by simp [initial, Feed.empty, Feed.AtMostOneObserver])
      (fun hi hcond hstep => atMostOneObserver_step hi hcond hstep)
  refine ⟨(run_valid h).array s, fun _ community _ _ => ?_⟩
  exact (appended_keys_sublist w community.communityID s).nodup
    (Feed.eventsOf_keys_nodup (hone community.communityID))

def oneUser : World := initial (fun _ => some "u") fun _ => none

/-- One visit: the screen appears once, and shows a message of another client and its own. -/
def oneVisit : List Act :=
  [.didSelectItemAt 0 ⟨"Swift", "c"⟩, .viewDidAppear 0, .didSelectItemAt 1 ⟨"Swift", "c"⟩,
    .viewDidAppear 1, .edit 1 "hello", .sendMessageAction 1 "k", .accepted "c" 0,
    .childAdded "c" 0 "k", .edit 0 "hi", .sendMessageAction 0 "l", .childAdded "c" 0 "l",
    .childAdded "c" 1 "k", .accepted "c" 0, .childAdded "c" 1 "l"]

theorem oneVisit_no_duplicates : ∃ w, Run step oneUser oneVisit w ∧
    (appended w "c" 0).map Prod.fst = ["k", "l"] ∧ NoDuplicates w 0 := by
  have hexec : (exec step oneUser oneVisit).map (fun w => (appended w "c" 0).map Prod.fst) =
      some ["k", "l"] := by
    decide
  obtain ⟨w, hw, hkeys⟩ := run_of_exec_map hexec
  refine ⟨w, hw, hkeys, (appears_once_no_duplicates hw ?_).2⟩
  refine Along.cons (by simp [AppearsUnobserved]) fun w₁ hw₁ => ?_
  refine Along.cons (fun _ c cb hcb => ?_) fun w₂ _ => Along.of_forall ?_
  · obtain rfl := Option.some.inj hw₁
    simp [initial, Feed.empty] at hcb
  · simp [AppearsUnobserved]

/-- One visit with a cancelled swipe back: `viewDidAppear` runs twice on the same screen. -/
def cancelledSwipe : List Act :=
  [.didSelectItemAt 0 ⟨"Swift", "c"⟩, .viewDidAppear 0, .viewDidAppear 0, .edit 0 "hi",
    .sendMessageAction 0 "k", .childAdded "c" 0 "k", .childAdded "c" 1 "k", .accepted "c" 0]

theorem cancelledSwipe_entries : (exec step oneUser cancelledSwipe).map (fun w =>
    (w.screens.map fun x => x.vc.community, (appended w "c" 0).map Prod.fst)) =
    some ([some ⟨"Swift", "c"⟩], ["k", "k"]) := by
  decide

/-- The second appearance registers a second observer, and the sent message is shown twice. -/
theorem cancelled_swipe_duplicates : ¬ ∀ currentUser users as w s,
    Run step (initial currentUser users) as w → (∀ c i, Act.rejected c i ∉ as) →
      NoDuplicates w s := by
  intro hall
  obtain ⟨w, hw, heq⟩ := run_of_exec_map cancelledSwipe_entries
  simp only [Prod.mk.injEq] at heq
  obtain ⟨screen, hs, hset⟩ : ∃ screen, w.screens[0]? = some screen ∧
      screen.vc.community = some ⟨"Swift", "c"⟩ := by
    have h0 := congrArg (fun l => l[0]?) heq.1
    simpa [Option.map_eq_some_iff] using h0
  have hnd := hall _ _ cancelledSwipe w 0 hw (by simp [cancelledSwipe])
    screen ⟨"Swift", "c"⟩ hs hset
  rw [heq.2] at hnd
  exact absurd hnd (by decide)

/-! ## The exact condition for duplicates -/

/-- A step that is not a refusal keeps every child in sight of each device. -/
theorem step_visible {w w' : World} {a : Act} (h : step w a = some w')
    (hr : ∀ c i, a ≠ .rejected c i) (c : String) (d : ℕ) :
    (w.messages c).visible d ⊆ (w'.messages c).visible d := by
  have hset : ∀ c' feed, ((w.messages c').visible d ⊆ feed.visible d) →
      (w.messages c).visible d ⊆ ((w.setFeed c' feed).messages c).visible d := by
    intro c' feed hsub
    rw [setFeed_messages]
    split_ifs with hc
    · exact hc ▸ hsub
    · exact List.Subset.refl _
  cases step_effect h with
  | signedIn | usersWritten | opened | sentNothing | nameServed | popped | edited
  | nameAnswered => exact List.Subset.refl _
  | appeared =>
    rw [appeared_messages]
    split_ifs <;> exact List.Subset.refl _
  | sent _ _ _ _ hw =>
    obtain ⟨-, hc, ho, -⟩ := Feed.write_eq_some hw
    exact hset _ _ (Feed.visible_mono d (by simp [hc]) fun p hp => by simp [ho, hp])
  | inserted hi =>
    obtain ⟨-, hc, ho, -⟩ := Feed.insert_eq_some hi
    exact hset _ _ (Feed.visible_mono d (by simp [hc]) fun p hp => by simp [ho, hp])
  | accepted ha _ => exact hset _ _ (Feed.accept_visible ha d)
  | @rejected c' i => exact absurd rfl (hr c' i)
  | delivered hd _ =>
    obtain ⟨-, -, -, -, hc, ho, -⟩ := Feed.deliver_eq_some hd
    exact hset _ _ (Feed.visible_mono d (by simp [hc]) fun p hp => by simp [ho, hp])

/-- The child of every event is in sight of the observer's device. -/
def EventsVisible (w : World) : Prop :=
  ∀ c, ∀ e ∈ (w.messages c).raised, ∀ cb, (w.messages c).observers[e.observer]? = some cb →
    (e.key, e.value) ∈ (w.messages c).visible cb.device

theorem step_raised {w w' : World} {a : Act} (h : step w a = some w') (c : String) :
    (w'.messages c).raised = (w.messages c).raised ∨
      ∃ o k cb v, (w.messages c).observers[o]? = some cb ∧
        (k, v) ∈ (w.messages c).visible cb.device ∧
        (w'.messages c).raised = (w.messages c).raised ++ [⟨o, k, v⟩] := by
  cases step_effect h with
  | signedIn | usersWritten | opened | sentNothing | nameServed | popped | edited
  | nameAnswered => exact Or.inl rfl
  | appeared =>
    rw [appeared_messages]
    split_ifs <;> exact Or.inl rfl
  | sent _ _ _ _ hw =>
    obtain ⟨-, -, -, -, hr, -⟩ := Feed.write_eq_some hw
    exact Or.inl (setFeed_raised hr c)
  | inserted hi =>
    obtain ⟨-, -, -, -, hr, -⟩ := Feed.insert_eq_some hi
    exact Or.inl (setFeed_raised hr c)
  | accepted ha _ =>
    obtain ⟨_, -, -, -, -, hr, -⟩ := Feed.accept_eq_some ha
    exact Or.inl (setFeed_raised hr c)
  | rejected hj _ =>
    obtain ⟨_, -, -, -, -, hr, -⟩ := Feed.reject_eq_some hj
    exact Or.inl (setFeed_raised hr c)
  | @delivered c' o k cb v feed screen hd _ =>
    obtain ⟨hcb, hv, -, hr, -⟩ := Feed.deliver_eq_some hd
    rw [setScreen_messages, setFeed_messages]
    split_ifs with hc
    · subst hc
      exact Or.inr ⟨o, k, cb, v, hcb, hv, hr⟩
    · exact Or.inl rfl

theorem step_eventsVisible {w w' : World} {a : Act} (h : EventsVisible w)
    (hstep : step w a = some w') (hr : ∀ c i, a ≠ .rejected c i) : EventsVisible w' := by
  intro c e he cb hcb
  have hmono := step_visible hstep hr c cb.device
  have hold : ∀ o, o < (w.messages c).observers.length →
      (w'.messages c).observers[o]? = (w.messages c).observers[o]? := by
    intro o ho
    rcases step_observers hstep c with hobs | ⟨_, _, -, -, -, hw⟩
    · rw [hobs]
    · rw [hw, Feed.observe_observers, List.getElem?_append_left ho]
  rcases step_raised hstep c with hsame | ⟨o, k, cb', v, hcb', hv, hnew⟩
  · rw [hsame] at he
    rw [hold _ ((w.messages c).raised_observer e he)] at hcb
    exact hmono (h c e he cb hcb)
  · rw [hnew] at he
    rcases List.mem_append.mp he with he | he
    · rw [hold _ ((w.messages c).raised_observer e he)] at hcb
      exact hmono (h c e he cb hcb)
    · obtain rfl := List.mem_singleton.mp he
      rw [hold o (List.getElem?_eq_some_iff.mp hcb').1] at hcb
      obtain rfl : cb' = cb := Option.some.inj (hcb'.symm.trans hcb)
      exact hmono hv

theorem eq_of_nodup_filterMap {α β : Type*} {f : α → Option β} {l : List α} {a b : α} {c : β}
    (h : (l.filterMap f).Nodup) (ha : a ∈ l) (hb : b ∈ l) (hfa : f a = some c)
    (hfb : f b = some c) : a = b := by
  induction l with
  | nil => simp at ha
  | cons x xs ih =>
    have hmem : ∀ y ∈ xs, f y = some c → c ∈ xs.filterMap f := fun y hy hf =>
      List.mem_filterMap.mpr ⟨y, hy, hf⟩
    rcases List.mem_cons.mp ha with rfl | ha' <;> rcases List.mem_cons.mp hb with rfl | hb'
    · rfl
    · rw [List.filterMap_cons_some hfa, List.nodup_cons] at h
      exact absurd (hmem b hb' hfb) h.1
    · rw [List.filterMap_cons_some hfb, List.nodup_cons] at h
      exact absurd (hmem a ha' hfa) h.1
    · exact ih (h.sublist ((List.sublist_cons_self x xs).filterMap f)) ha' hb'

theorem run_eventsVisible (h : Run step (initial currentUser users) as w)
    (hr : ∀ c i, Act.rejected c i ∉ as) : EventsVisible w := by
  refine h.invariant_along (C := fun _ a => ∀ c i, a ≠ .rejected c i) ?_
    (fun c e he => by simp [initial, Feed.empty] at he)
    (fun hi hcond hstep => step_eventsVisible hi hstep hcond)
  rintro pre a post t rfl - c i rfl
  exact hr c i (by simp)

/-- The observers of a screen run on its own device. -/
theorem observer_device (h : Run step (initial currentUser users) as w) {screen : Screen}
    (hs : w.screens[s]? = some screen) {c : String} {cb : Callback ℕ ℕ}
    (hcb : cb ∈ (w.messages c).observers) (howner : cb.owner = s) : cb.device = screen.client := by
  subst howner
  obtain ⟨x, -, hx, hd, -⟩ := (run_valid h).observer c cb hcb
  obtain rfl : x = screen := Option.some.inj (hx.symm.trans hs)
  exact hd.symm

/-- Once everything is delivered, what one observer of a screen was raised all of them were. -/
theorem raised_to_all (h : Run step (initial currentUser users) as w)
    (hr : ∀ c i, Act.rejected c i ∉ as) {c : String} (hq : (w.messages c).Quiescent)
    {screen : Screen} (hs : w.screens[s]? = some screen) {e : Event String Value}
    (he : e ∈ (w.messages c).eventsOf s) {o : ℕ} {cb : Callback ℕ ℕ}
    (ho : (w.messages c).observers[o]? = some cb) (howner : cb.owner = s) :
    ⟨o, e.key, e.value⟩ ∈ (w.messages c).eventsOf s := by
  obtain ⟨hraised, cb', hcb', howner'⟩ := Feed.mem_eventsOf.mp he
  have hvisible := run_eventsVisible h hr c e hraised cb' hcb'
  have hdevice := observer_device h hs (List.mem_of_getElem? ho) howner
  have hdevice' := observer_device h hs (List.mem_of_getElem? hcb') howner'
  have hevent := hq.event ho (p := (e.key, e.value)) (hdevice.trans hdevice'.symm ▸ hvisible)
  rwa [howner] at hevent

/-- A child that a screen shows once was raised to one observer only. -/
theorem atMostOneObserver_of_noDuplicates (h : Run step (initial currentUser users) as w)
    (hr : ∀ c i, Act.rejected c i ∉ as) {screen : Screen} {community : Community}
    (hq : (w.messages community.communityID).Quiescent) (hs : w.screens[s]? = some screen)
    (hset : screen.vc.community = some community) (hnd : NoDuplicates w s)
    {e : Event String Value} (he : e ∈ (w.messages community.communityID).eventsOf s)
    {message : Message} (hm : decodeMessage e.value = some message) :
    (w.messages community.communityID).AtMostOneObserver s := by
  intro i j a b hi hj ha hb
  have hkeys := hnd screen community hs hset
  rw [appended, List.map_filterMap] at hkeys
  have hei := raised_to_all h hr hq hs he hi ha
  have hej := raised_to_all h hr hq hs he hj hb
  have heq := eq_of_nodup_filterMap (c := e.key) hkeys hei hej (by simp [hm]) (by simp [hm])
  exact congrArg Event.observer heq

/-- Once everything is delivered, a readable child is shown twice exactly when the screen has
registered two observers. -/
theorem no_duplicates_iff (h : Run step (initial currentUser users) as w)
    (hr : ∀ c i, Act.rejected c i ∉ as) (hq : ∀ c, (w.messages c).Quiescent)
    {screen : Screen} {community : Community} (hs : w.screens[s]? = some screen)
    (hset : screen.vc.community = some community) :
    NoDuplicates w s ↔ (w.messages community.communityID).AtMostOneObserver s ∨
      ∀ e ∈ (w.messages community.communityID).eventsOf s, decodeMessage e.value = none := by
  constructor
  · intro hnd
    by_contra hno
    push Not at hno
    obtain ⟨htwo, e, he, hdec⟩ := hno
    obtain ⟨message, hm⟩ := Option.ne_none_iff_exists'.mp hdec
    exact htwo (atMostOneObserver_of_noDuplicates h hr (hq _) hs hset hnd he hm)
  · intro hcases x y hx hy
    obtain rfl : x = screen := Option.some.inj (hx.symm.trans hs)
    obtain rfl : y = community := Option.some.inj (hy.symm.trans hset)
    rcases hcases with hone | hnone
    · exact (appended_keys_sublist w y.communityID s).nodup (Feed.eventsOf_keys_nodup hone)
    · have hnil : appended w y.communityID s = [] := by
        rw [appended, List.filterMap_eq_nil_iff]
        intro e he
        rw [hnone e he]
        rfl
      simp [hnil]

end LoopChat.ChatSystem
