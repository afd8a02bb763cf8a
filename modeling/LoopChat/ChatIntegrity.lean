import LoopChat.ChatDelivery

/-!
# No loss, no forgery, no cross-talk

Every entry is traced back to the tap that wrote it, every readable child reaches every
screen of its community, and an unreadable child changes nothing.
-/
namespace LoopChat.ChatSystem
open FirebaseValues ChildFeed TransitionRuns

/-- What the three casts of `getMessage` ask of a child. -/
def Readable (value : Value) : Prop :=
  ∃ fields : Fields, value = .dict fields ∧ (fields.string "messageBody").isSome ∧
    (fields.string "SenderName").isSome ∧ (fields.string "SenderID").isSome

theorem readable_iff {value : Value} :
    Readable value ↔ ∃ message, decodeMessage value = some message := by
  constructor
  · rintro ⟨fields, rfl, hb, hn, hs⟩
    obtain ⟨body, hb⟩ := Option.isSome_iff_exists.mp hb
    obtain ⟨name, hn⟩ := Option.isSome_iff_exists.mp hn
    obtain ⟨sender, hs⟩ := Option.isSome_iff_exists.mp hs
    exact ⟨⟨name, sender, body⟩, decodeMessage_eq_some.mpr ⟨fields, rfl, hb, hn, hs⟩⟩
  · rintro ⟨message, hm⟩
    obtain ⟨fields, rfl, hb, hn, hs⟩ := decodeMessage_eq_some.mp hm
    exact ⟨fields, rfl, by simp [hb], by simp [hn], by simp [hs]⟩

/-- On the run `as`, a tap on send of a screen for `communityid` wrote `value` under `key`,
with the screen's cached name, the uid signed in at the tap and the text of the field. -/
def WroteMessage (w₀ : World) (as : List Act) (communityid key : String) (value : Value) :
    Prop :=
  ∃ s, Taken step w₀ as (.sendMessageAction s key) fun w => ∃ screen userid community,
    w.screens[s]? = some screen ∧ screen.vc.community = some community ∧
      community.communityID = communityid ∧ w.currentUser screen.client = some userid ∧
      value = .dict (dataArray screen.vc.userName1 userid screen.vc.messageTextField)

theorem WroteMessage.append {w₀ : World} {as : List Act} {c key : String} {value : Value}
    (h : WroteMessage w₀ as c key value) (bs : List Act) :
    WroteMessage w₀ (as ++ bs) c key value := by
  obtain ⟨s, hs⟩ := h
  exact ⟨s, hs.append bs⟩

/-- A new child comes from outside or from a tap on send. -/
theorem step_known {w w' : World} {a : Act} (h : step w a = some w') {c k : String}
    {v : Value} (hp : (k, v) ∈ (w'.messages c).known) :
    (k, v) ∈ (w.messages c).known ∨ a = .foreignChild c k v ∨
      ∃ s screen userid community, a = .sendMessageAction s k ∧ w.screens[s]? = some screen ∧
        screen.vc.community = some community ∧ community.communityID = c ∧
        w.currentUser screen.client = some userid ∧
        v = .dict (dataArray screen.vc.userName1 userid screen.vc.messageTextField) := by
  have hold : ∀ {c' : String} {feed : Feed String Value ℕ ℕ}, feed.known ⊆ (w.messages c').known →
      (k, v) ∈ ((w.setFeed c' feed).messages c).known → (k, v) ∈ (w.messages c).known := by
    intro c' feed hsub hp
    rcases known_setFeed hp with ⟨rfl, hnew⟩ | hrest
    · exact hsub hnew
    · exact hrest
  cases step_effect h with
  | signedIn | usersWritten | opened | sentNothing | nameServed | popped | edited
  | nameAnswered => exact Or.inl hp
  | appeared =>
    rw [appeared_messages] at hp
    split_ifs at hp <;> exact Or.inl hp
  | @sent s screen userid community key feed hs hu hset _ hw =>
    rcases known_setFeed hp with ⟨rfl, hnew⟩ | hrest
    · rcases (Feed.mem_known_write hw).mp hnew with hprior | heq
      · exact Or.inl hprior
      · obtain ⟨rfl, rfl⟩ := Prod.mk.inj heq
        exact Or.inr (Or.inr ⟨s, screen, userid, community, rfl, hs, hset, rfl, hu, rfl⟩)
    · exact Or.inl hrest
  | @inserted c' key value feed hi =>
    rcases known_setFeed hp with ⟨rfl, hnew⟩ | hrest
    · rcases (Feed.mem_known_insert hi).mp hnew with hprior | heq
      · exact Or.inl hprior
      · obtain ⟨rfl, rfl⟩ := Prod.mk.inj heq
        exact Or.inr (Or.inl rfl)
    · exact Or.inl hrest
  | accepted ha _ => exact Or.inl (hold (Feed.accept_known ha) hp)
  | rejected hj _ => exact Or.inl (hold (Feed.reject_known hj) hp)
  | delivered hd _ => exact Or.inl (hold (fun _ hq => Feed.deliver_known hd ▸ hq) hp)

variable {currentUser : ℕ → Option String} {users : String → Option Fields}
  {as : List Act} {w : World}

/-- Every child, also one that was refused after its event was raised, was written by a tap
on send or came from outside. -/
theorem child_origin (h : Run step (initial currentUser users) as w) (c k : String) (v : Value)
    (hv : (k, v) ∈ (w.messages c).known ∨
      ∃ e ∈ (w.messages c).raised, e.key = k ∧ e.value = v) :
    .foreignChild c k v ∈ as ∨ WroteMessage (initial currentUser users) as c k v := by
  induction h generalizing c k v with
  | nil => simp [initial, Feed.empty, Feed.known] at hv
  | @snoc as w a w' prior next ih =>
    have hlift : (.foreignChild c k v ∈ as ∨ WroteMessage (initial currentUser users) as c k v) →
        .foreignChild c k v ∈ as ++ [a] ∨
          WroteMessage (initial currentUser users) (as ++ [a]) c k v :=
      Or.imp (List.mem_append_left _) (fun hw => hw.append [a])
    rcases hv with hv | ⟨e, he, rfl, rfl⟩
    · rcases step_known next hv with hold | rfl | ⟨s, screen, userid, community, rfl, hrest⟩
      · exact hlift (ih c k v (Or.inl hold))
      · exact Or.inl (by simp)
      · exact Or.inr ⟨s, Taken.last prior ⟨screen, userid, community, hrest⟩⟩
    · rcases step_raised next c with hr | ⟨o, k, cb, v, -, hvis, hr⟩
      · exact hlift (ih c _ _ (Or.inr ⟨e, hr ▸ he, rfl, rfl⟩))
      · rw [hr] at he
        rcases List.mem_append.mp he with hold | hnew
        · exact hlift (ih c _ _ (Or.inr ⟨e, hold, rfl, rfl⟩))
        · obtain rfl := List.mem_singleton.mp hnew
          exact hlift (ih c k v (Or.inl (Feed.visible_subset_known _ _ hvis)))

/-- A screen keeps its index, its client and its community for ever. -/
theorem step_screen {w w' : World} {a : Act} (h : step w a = some w') {s : ℕ} {screen : Screen}
    (hs : w.screens[s]? = some screen) : ∃ screen', w'.screens[s]? = some screen' ∧
      screen'.client = screen.client ∧ screen'.vc.community = screen.vc.community := by
  have hset : ∀ i (x x' : Screen), w.screens[i]? = some x → x'.client = x.client →
      x'.vc.community = x.vc.community → ∃ y, (w.screens.set i x')[s]? = some y ∧
        y.client = screen.client ∧ y.vc.community = screen.vc.community := by
    intro i x x' hx hclient hcommunity
    by_cases hi : i = s
    · subst hi
      obtain rfl : x = screen := Option.some.inj (hx.symm.trans hs)
      exact ⟨x', List.getElem?_set_self (List.getElem?_eq_some_iff.mp hs).1, hclient, hcommunity⟩
    · exact ⟨screen, by rw [List.getElem?_set_ne hi]; exact hs, rfl, rfl⟩
  cases step_effect h with
  | signedIn | usersWritten | sentNothing | nameServed | sent | inserted =>
    exact ⟨screen, hs, rfl, rfl⟩
  | opened =>
    exact ⟨screen, by rw [List.getElem?_append_left (List.getElem?_eq_some_iff.mp hs).1]; exact hs,
      rfl, rfl⟩
  | appeared => exact ⟨screen, by rw [appeared_screens]; exact hs, rfl, rfl⟩
  | popped hx => exact hset _ _ _ hx rfl rfl
  | edited _ hx => exact hset _ _ _ hx rfl rfl
  | accepted _ hx => exact hset _ _ _ hx rfl rfl
  | rejected _ hx => exact hset _ _ _ hx rfl rfl
  | delivered _ hx => exact hset _ _ _ hx rfl (by simp)
  | nameAnswered _ _ _ hx hvc =>
    obtain ⟨user, -, rfl⟩ := ChatScreentVC.userNameAnswer_eq_ok.mp hvc
    exact hset _ _ _ hx rfl rfl

/-- A screen that has appeared has an observer on its community from then on. -/
theorem appeared_observer (h : Run step (initial currentUser users) as w) {s : ℕ}
    (happ : .viewDidAppear s ∈ as) : ∃ screen community cb, w.screens[s]? = some screen ∧
      screen.vc.community = some community ∧
      cb ∈ (w.messages community.communityID).observers ∧ cb.owner = s := by
  induction h with
  | nil => simp at happ
  | @snoc as w a w' prior next ih =>
    have hobs : ∀ c, ∀ cb ∈ (w.messages c).observers, cb ∈ (w'.messages c).observers := by
      intro c cb hcb
      rcases step_observers next c with ho | ⟨_, _, -, -, -, hw⟩
      · exact ho ▸ hcb
      · simp [hw, hcb]
    rcases List.mem_append.mp happ with hold | hnew
    · obtain ⟨screen, community, cb, hs, hset, hcb, howner⟩ := ih hold
      obtain ⟨screen', hs', -, hset'⟩ := step_screen next hs
      exact ⟨screen', community, cb, hs', hset'.trans hset, hobs _ cb hcb, howner⟩
    · obtain rfl : .viewDidAppear s = a := List.mem_singleton.mp hnew
      cases step_effect next with
      | @appeared _ screen userid hs _ =>
        obtain ⟨community, hset⟩ := (run_valid prior).community s screen hs
        refine ⟨screen, community, ⟨screen.client, s⟩, ?_, hset, ?_, rfl⟩
        · rw [appeared_screens]
          exact hs
        · simp [appeared_messages, hset]

theorem childAdded_isSome_iff {w : World} {c k : String} {o : ℕ} :
    (step w (.childAdded c o k)).isSome ↔ ∃ cb v screen,
      (w.messages c).observers[o]? = some cb ∧ (k, v) ∈ (w.messages c).visible cb.device ∧
      ((o, k) ∉ (w.messages c).raised.map fun e => (e.observer, e.key)) ∧
      w.screens[cb.owner]? = some screen := by
  constructor
  · intro h
    obtain ⟨w', hw'⟩ := Option.isSome_iff_exists.mp h
    cases step_effect hw' with
    | delivered hd hs =>
      obtain ⟨ho, hv, hn, -⟩ := Feed.deliver_eq_some hd
      exact ⟨_, _, _, ho, hv, hn, hs⟩
  · rintro ⟨cb, v, screen, ho, hv, hn, hs⟩
    obtain ⟨g, hg⟩ := Feed.deliver_isSome ho hv hn
    simp [step, hg, hs]

/-- Delivering one event leaves every other due event due. -/
theorem childAdded_keeps_due {w w' : World} {c k : String} {o : ℕ}
    (h : step w (.childAdded c o k) = some w') {c' k' : String} {o' : ℕ}
    (hne : (c', o', k') ≠ (c, o, k)) (hdue : (step w (.childAdded c' o' k')).isSome) :
    (step w' (.childAdded c' o' k')).isSome := by
  obtain ⟨cb', v', screen', ho', hv', hn', hs'⟩ := childAdded_isSome_iff.mp hdue
  obtain ⟨screen'', hs'', -⟩ := step_screen h hs'
  have hvis := step_visible h (by simp) c' cb'.device hv'
  cases step_effect h with
  | delivered hd hs =>
    obtain ⟨-, -, -, hr, -, -, ho, -⟩ := Feed.deliver_eq_some hd
    refine childAdded_isSome_iff.mpr ⟨cb', v', screen'', ?_, hvis, ?_, hs''⟩
    · rw [setScreen_messages, setFeed_observers ho]
      exact ho'
    · rw [setScreen_messages, setFeed_messages]
      split_ifs with hcc
      · subst hcc
        rw [hr, List.map_append, List.mem_append, not_or]
        refine ⟨hn', ?_⟩
        simpa using hne
      · exact hn'

/-- An entry that no other app wrote comes from a tap on a screen of the same community, with
the text and the name of that screen and the uid signed in at the tap. -/
theorem entry_sent (h : Run step (initial currentUser users) as w) {c k : String} {s : ℕ}
    {message : Message} (hmem : (k, message) ∈ appended w c s)
    (hforeign : ∀ value, Act.foreignChild c k value ∉ as) :
    ∃ sender, Taken step (initial currentUser users) as (.sendMessageAction sender k)
      fun w₁ => ∃ from_, w₁.screens[sender]? = some from_ ∧
        from_.vc.community.map Community.communityID = some c ∧
        message.messageBody = from_.vc.messageTextField ∧
        message.senderName = from_.vc.userName1 ∧
        w₁.currentUser from_.client = some message.senderID := by
  obtain ⟨e, he, rfl, hm⟩ := mem_appended.mp hmem
  have hraised := (Feed.mem_eventsOf.mp he).1
  have horigin := child_origin h c e.key e.value (Or.inr ⟨e, hraised, rfl, rfl⟩)
  obtain ⟨sender, hsent⟩ := horigin.resolve_left (hforeign e.value)
  refine ⟨sender, hsent.mono ?_⟩
  rintro w₁ ⟨x, userid, y, hx, hy, hid, hu, hv⟩
  rw [hv, decodeMessage_dataArray] at hm
  obtain rfl := Option.some.inj hm
  exact ⟨x, hx, by simp [hy, hid], rfl, rfl, hu⟩

/-- With nothing undelivered, a screen that has appeared shows every readable child. -/
theorem readable_shown (h : Run step (initial currentUser users) as w)
    (hq : ∀ c, (w.messages c).Quiescent) {s : ℕ} {screen : Screen} {community : Community}
    (hs : w.screens[s]? = some screen) (hset : screen.vc.community = some community)
    (happ : Act.viewDidAppear s ∈ as) {k : String} {value : Value}
    (hk : (k, value) ∈ (w.messages community.communityID).children) (hread : Readable value) :
    ∃ message, decodeMessage value = some message ∧
      (k, message) ∈ appended w community.communityID s := by
  obtain ⟨message, hm⟩ := readable_iff.mp hread
  obtain ⟨x, y, cb, hx, hy, hcb, rfl⟩ := appeared_observer h happ
  obtain rfl : x = screen := Option.some.inj (hx.symm.trans hs)
  obtain rfl : y = community := Option.some.inj (hy.symm.trans hset)
  obtain ⟨o, ho⟩ := List.mem_iff_getElem?.mp hcb
  have he := (hq y.communityID).event ho (List.mem_append_left _ hk)
  exact ⟨message, hm, mem_appended.mpr ⟨_, he, rfl, hm⟩⟩

/-- An unreadable child leaves every screen as it is. -/
theorem unreadable_adds_nothing {w w' : World} {c : String} {cb : Callback ℕ ℕ}
    {value : Value} {feed : Feed String Value ℕ ℕ} {screen : Screen}
    (hs : w.screens[cb.owner]? = some screen) (hno : ¬ Readable value)
    (hw : w' = (w.setFeed c feed).setScreen cb.owner
      { screen with vc := (screen.vc.childAdded value).1 }) : w'.screens = w.screens := by
  have hnone : decodeMessage value = none := by
    rw [← Option.not_isSome_iff_eq_none, Option.isSome_iff_exists]
    exact fun hm => hno (readable_iff.mpr hm)
  have hvc : (screen.vc.childAdded value).1 = screen.vc := by
    simp [ChatScreentVC.childAdded, hnone]
  obtain ⟨hlt, rfl⟩ := List.getElem?_eq_some_iff.mp hs
  rw [hw, setScreen_screens, setFeed_screens, hvc]
  exact List.set_getElem_self hlt

/-- No loss, no forgery, no cross-talk, over every run of any number of clients, screens and
communities. Entries are traced to a tap on a screen of the same community, by the uid
signed in at the tap; with nothing undelivered every readable child is shown on every screen
that has appeared; and an unreadable child adds nothing and holds nothing up. -/
theorem feed_integrity (h : Run step (initial currentUser users) as w) :
    (∀ s screen community, w.screens[s]? = some screen → screen.vc.community = some community →
      screen.vc.messageArr = (appended w community.communityID s).map Prod.snd ∧
      ∀ k message, (k, message) ∈ appended w community.communityID s →
        (∀ value, Act.foreignChild community.communityID k value ∉ as) →
        ∃ sender, Taken step (initial currentUser users) as (.sendMessageAction sender k)
          fun w₁ => ∃ from_, w₁.screens[sender]? = some from_ ∧
            from_.vc.community.map Community.communityID = some community.communityID ∧
            message.messageBody = from_.vc.messageTextField ∧
            message.senderName = from_.vc.userName1 ∧
            w₁.currentUser from_.client = some message.senderID) ∧
    ((∀ c, (w.messages c).Quiescent) → ∀ s screen community, w.screens[s]? = some screen →
      screen.vc.community = some community → Act.viewDidAppear s ∈ as →
      ∀ k value, (k, value) ∈ (w.messages community.communityID).children → Readable value →
        ∃ message, decodeMessage value = some message ∧
          (k, message) ∈ appended w community.communityID s) ∧
    (∀ c o k w', step w (.childAdded c o k) = some w' →
      ∃ cb value, (w.messages c).observers[o]? = some cb ∧ (k, value) ∈ (w.messages c).known ∧
        (∀ c' s, appended w' c' s = appended w c' s ++ if c' = c ∧ cb.owner = s
          then ((decodeMessage value).map fun message => (k, message)).toList else []) ∧
        (¬ Readable value → w'.screens = w.screens) ∧
        ∀ c' o' k', (c', o', k') ≠ (c, o, k) → (step w (.childAdded c' o' k')).isSome →
          (step w' (.childAdded c' o' k')).isSome) := by
  have hvalid := run_valid h
  refine ⟨fun s screen community hs hset => ⟨hvalid.array s screen community hs hset, ?_⟩,
    ?_, ?_⟩
  · exact fun k message hmem hforeign => entry_sent h hmem hforeign
  · exact fun hq s screen community hs hset happ k value hk hread =>
      readable_shown h hq hs hset happ hk hread
  · intro c o k w' hstep
    have hkeep : ∀ c' o' k', (c', o', k') ≠ (c, o, k) →
        (step w (.childAdded c' o' k')).isSome → (step w' (.childAdded c' o' k')).isSome :=
      fun c' o' k' hne hdue => childAdded_keeps_due hstep hne hdue
    cases step_effect hstep with
    | @delivered _ _ _ cb value feed screen hd hs =>
      obtain ⟨ho, hv, -⟩ := Feed.deliver_eq_some hd
      exact ⟨cb, value, ho, Feed.visible_subset_known _ _ hv,
        fun c' s => appended_deliver hd c' s,
        fun hno => unreadable_adds_nothing hs hno rfl, hkeep⟩

/-- Before the second observer of the doubled visit is raised the message. -/
def beforeSecondEvent : List Act := cancelledSwipe.take 6

/-- The doubled visit has the decoded events of its screen for entries; the stored message is among
them once nothing is undelivered; and the last event appended it a second time. -/
theorem feed_integrity_cancelledSwipe : ∃ s t w,
    Run step oneUser beforeSecondEvent s ∧ step s (.childAdded "c" 1 "k") = some t ∧
      step t (.accepted "c" 0) = some w ∧
      (∀ screen community, w.screens[0]? = some screen → screen.vc.community = some community →
        screen.vc.messageArr = (appended w community.communityID 0).map Prod.snd) ∧
      (∃ message, ("k", message) ∈ appended w "c" 0) ∧
      ∃ value, ("k", value) ∈ (s.messages "c").known ∧ appended t "c" 0 = appended s "c" 0 ++
        ((decodeMessage value).map fun message => ("k", message)).toList := by
  let hi : Value := .dict (dataArray "" "u" "hi")
  have hbefore : (exec step oneUser beforeSecondEvent).map (fun s =>
      ((s.messages "c").observers[1]?, (step s (.childAdded "c" 1 "k")).isSome)) =
      some (some ⟨0, 0⟩, true) := by
    decide
  obtain ⟨s, hs, hstate⟩ := run_of_exec_map hbefore
  obtain ⟨hobserver, hnext⟩ := Prod.mk.inj hstate
  obtain ⟨t, ht⟩ := Option.isSome_iff_exists.mp hnext
  have hend : (exec step oneUser cancelledSwipe).map (fun w =>
      (w.screens.map fun x => x.vc.community, (w.messages "c").children)) =
      some ([some ⟨"Swift", "c"⟩], [("k", hi)]) := rfl
  have hquiet : (exec step oneUser cancelledSwipe).map (fun w =>
      decide (w.messages "c").Quiescent) = some true := by
    decide
  obtain ⟨w, hw, hlast⟩ := run_of_exec_map hend
  obtain ⟨hscreens, hchildren⟩ := Prod.mk.inj hlast
  have hwt : step t (.accepted "c" 0) = some w := by
    obtain ⟨t', ht', hrest⟩ : ∃ t', Run step oneUser
        (beforeSecondEvent ++ [.childAdded "c" 1 "k"]) t' ∧ Run step t' [.accepted "c" 0] w :=
      Run.split hw
    obtain rfl := (hs.snoc ht).deterministic ht'
    simpa [run_cons_iff, run_nil_iff] using hrest
  obtain ⟨screen, hscreen, hset⟩ : ∃ screen, w.screens[0]? = some screen ∧
      screen.vc.community = some ⟨"Swift", "c"⟩ := by
    have h0 := congrArg (fun l => l[0]?) hscreens
    simpa [Option.map_eq_some_iff] using h0
  -- only the one community is observed
  have hq : ∀ c, (w.messages c).Quiescent := by
    intro c o cb ho p hp
    obtain ⟨x, community, hx, -, hxset, rfl⟩ :=
      (run_valid hw).observer c cb (List.mem_of_getElem? ho)
    have hmem : x.vc.community ∈ w.screens.map fun x => x.vc.community :=
      List.mem_map_of_mem (List.mem_of_getElem? hx)
    rw [hscreens, List.mem_singleton, hxset] at hmem
    obtain rfl := Option.some.inj hmem
    have hdone := run_iff_exec.mp hw ▸ hquiet
    exact (of_decide_eq_true (Option.some.inj hdone)) o cb ho p hp
  have hintegrity := feed_integrity hw
  obtain ⟨cb, value, hcb, hknown, happended, -, -⟩ := (feed_integrity hs).2.2 "c" 1 "k" t ht
  obtain rfl : cb = ⟨0, 0⟩ := Option.some.inj (hcb.symm.trans hobserver)
  refine ⟨s, t, w, hs, ht, hwt, fun x community hx hxset =>
    (hintegrity.1 0 x community hx hxset).1, ?_, value, hknown, by simpa using happended "c" 0⟩
  obtain ⟨message, -, hmem⟩ := hintegrity.2.1 hq 0 screen _ hscreen hset
    (by simp [cancelledSwipe]) "k" hi (by simp [hchildren]) (readable_iff.mpr ⟨_, rfl⟩)
  exact ⟨message, hmem⟩

end LoopChat.ChatSystem
