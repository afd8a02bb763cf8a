import LoopChat.ConversationOrder
import LoopChat.ChatTwins

/-!
# What a refused send leaves behind

The local event of a send appends its message at once; the completion handler of a refused
one prints the error and leaves the array alone, and nobody observes `childRemoved`. The run
is compared with the same run in which the refused sends were never made.
-/
namespace LoopChat.ConversationSystem
open FirebaseValues ChildFeed TransitionRuns

/-- The writes refused on a run, by community and key. -/
def refused (as : List Act) : List (String × String) :=
  as.filterMap fun
    | .rejected c key => some (c, key)
    | _ => none

def kept (as : List Act) (c key : String) : Bool := (c, key) ∉ refused as

/-- The label neither makes nor hands out nor refuses a write that is not kept. -/
def spared (openOn : ℕ → Option String) (keep : String → String → Bool) : Act → Bool
  | .chat (.sendMessageAction s key) => (openOn s).all fun c => keep c key
  | .childAdded c _ key => keep c key
  | .rejected _ _ => false
  | _ => true

/-- The run had the refused sends never been made. -/
def withoutRefused (w : World) (as : List Act) : List Act :=
  as.filter (spared w.chat.openOn (kept as))

/-- `w'` is `w` without the writes that are not kept. -/
structure Without (keep : String → String → Bool) (w w' : World) : Prop where
  chat : ChatSystem.Without keep w.chat w'.chat
  queues : ∀ c, Queues.Thinned (keep c) (w.queues c) (w'.queues c)

variable {ρ : Type*} [LinearOrder ρ] {rank : String ↪ ρ} {currentUser : ℕ → Option String}
  {users : String → Option Fields} {w w' u : World} {a : Act} {as : List Act} {c : String} {s : ℕ}
  {keep : String → String → Bool} {openOn : ℕ → Option String}

/-- The choice of what is kept suits the step: what is stored is kept, what is refused is not. -/
structure Suits (openOn : ℕ → Option String) (keep : String → String → Bool) (w : World)
    (a : Act) : Prop where
  stored : ∀ c, ∀ p ∈ (w.chat.messages c).children, keep c p.1 = true
  accepted : ∀ c key, a = .accepted c key → keep c key = true
  rejected : ∀ c key, a = .rejected c key → keep c key = false
  sent : ∀ s key, a = .chat (.sendMessageAction s key) →
    ∃ c, openOn s = some c ∧ w.chat.openOn s = some c

theorem Without.follow (h : Without keep w w') {chat chat' : ChatSystem.World}
    (hc : ChatSystem.Without keep chat chat')
    (hw : ChatSystem.SameWrites keep w.chat chat w'.chat chat') :
    Without keep (w.follow chat) (w'.follow chat') :=
  ⟨hc, fun c => (h.queues c).follow (h.chat.feeds c) (hc.feeds c) (hw c)⟩

theorem Without.setQueues (h : Without keep w w') {q q' : Queues String}
    (hq : Queues.Thinned (keep c) q q') : Without keep (w.setQueues c q) (w'.setQueues c q') := by
  refine ⟨h.chat, fun c' => ?_⟩
  by_cases hc : c' = c
  · subst hc
    simpa [World.setQueues] using hq
  · simpa [World.setQueues, hc] using h.queues c'

theorem Without.withChat (h : Without keep w w') {chat chat' : ChatSystem.World}
    (hc : ChatSystem.Without keep chat chat') :
    Without keep { w with chat := chat } { w' with chat := chat' } := ⟨hc, h.queues⟩

/-- Queues that follow a world that did not change. -/
theorem follow_self (w : World) : w.follow w.chat = w := by
  have hq : ∀ c, (w.queues c).follow (w.chat.messages c) (w.chat.messages c) = w.queues c := by
    intro c
    have hlt : ∀ o n : ℕ, ¬ (n ≤ o ∧ o < n) := fun o n h => absurd h.1 (by omega)
    simp [Queues.follow, Queues.written_eq_nil rfl, hlt]
  simp [World.follow, hq]

/-- A step can be repeated without the writes that are not kept, or left out. -/
theorem step_without (h : Without keep w w') (hsuits : Suits openOn keep w a)
    (hs : step rank w a = some u) :
    (spared openOn keep a = true ∧ ∃ u', step rank w' a = some u' ∧ Without keep u u') ∨
      (spared openOn keep a = false ∧ Without keep u w') := by
  cases step_effect hs with
  | @chat a chat client next =>
    by_cases hspared : spared openOn keep (.chat a) = true
    · refine Or.inl ⟨hspared, ?_⟩
      have hkeeps : ChatSystem.Keeps keep w.chat a := by
        rintro s key c rfl hopen
        obtain ⟨d, hd, hd'⟩ := hsuits.sent s key rfl
        obtain rfl : d = c := Option.some.inj (hd'.symm.trans hopen)
        simpa [spared, hd] using hspared
      obtain ⟨chat', next', hchat, hwrites⟩ := h.chat.client client hkeeps next
      exact ⟨w'.follow chat', by simp [step, client, next'], h.follow hchat hwrites⟩
    · rw [Bool.not_eq_true] at hspared
      refine Or.inr ⟨hspared, ?_⟩
      cases a with
      | sendMessageAction s key =>
        obtain ⟨d, hd, hd'⟩ := hsuits.sent s key rfl
        have hk : keep d key = false := by simpa [spared, hd] using hspared
        obtain ⟨hchat, hwrites⟩ := h.chat.client_dropped next hd' hk
        have hfollow := h.follow hchat hwrites
        rwa [follow_self] at hfollow
      | _ => simp [spared] at hspared
  | @loaded c o n q load =>
    obtain ⟨q', hq', hthin⟩ := (h.queues c).load (h.chat.feeds c) (hsuits.stored c) load
    exact Or.inl ⟨rfl, w'.setQueues c q', by simp [step, hq'], h.setQueues hthin⟩
  | @arrived c o q arrive =>
    obtain ⟨q', hq', hthin⟩ := (h.queues c).arrive (h.chat.feeds c) (hsuits.stored c) arrive
    exact Or.inl ⟨rfl, w'.setQueues c q', by simp [step, hq'], h.setQueues hthin⟩
  | @handed c o key q chat hand next =>
    by_cases hk : keep c key = true
    · obtain ⟨q', hq', hthin⟩ := (h.queues c).hand hand hk
      obtain ⟨chat', next', hchat⟩ := h.chat.delivered hk next
      exact Or.inl ⟨hk, { w'.setQueues c q' with chat := chat' }, by simp [step, hq', next'],
        (h.setQueues hthin).withChat hchat⟩
    · rw [Bool.not_eq_true] at hk
      refine Or.inr ⟨hk, h.chat.delivered_dropped hk next, fun c' => ?_⟩
      have hdropped := (h.queues c).hand_dropped hand hk
      by_cases hc : c' = c
      · subst hc
        simpa [World.setQueues] using hdropped
      · simpa [World.setQueues, hc] using h.queues c'
  | @accepted c key i chat place next =>
    obtain ⟨cb, v, hi⟩ := place_eq_some place
    obtain ⟨j, chat', hplace, next', hchat⟩ :=
      h.chat.accepted hi (hsuits.accepted c key rfl) next
    exact Or.inl ⟨rfl, { w' with chat := chat' }, by simp [step, World.place, hplace, next'],
      h.withChat hchat⟩
  | @rejected c key i chat place next handed =>
    obtain ⟨cb, v, hi⟩ := place_eq_some place
    exact Or.inr ⟨rfl, h.chat.rejected hi (hsuits.rejected c key rfl) next, h.queues⟩

/-- A run can be repeated without the writes that are not kept. -/
theorem run_without (h : Run (step rank) (initial currentUser users) as w)
    (hC : Along (step rank) (initial currentUser users) (Suits openOn keep) as) :
    ∃ w', Run (step rank) (initial currentUser users) (as.filter (spared openOn keep)) w' ∧
      Without keep w w' := by
  induction h with
  | nil =>
    have hfeed : ∀ c, Feed.Thinned (keep c) (Feed.empty : Feed String Value ℕ ℕ) Feed.empty :=
      fun c => ⟨rfl, rfl, rfl, rfl, List.Subset.refl _⟩
    exact ⟨_, Run.nil, ⟨rfl, rfl, rfl, rfl, rfl, hfeed⟩, fun c => ⟨fun o => rfl, rfl⟩⟩
  | @snoc as u a v prior next ih =>
    obtain ⟨u', hrun, hu⟩ := ih hC.prior
    rw [List.filter_append, List.filter_singleton]
    rcases step_without hu (hC.last prior) next with ⟨hsp, v', hv', hv⟩ | ⟨hsp, hv⟩
    · rw [hsp]
      exact ⟨v', hrun.snoc hv', hv⟩
    · rw [hsp]
      exact ⟨u', by simpa using hrun, hv⟩

/-! ### What becomes of a refused write -/

theorem step_next (h : step rank w a = some w') (c : String) :
    Feed.Next (w.chat.messages c) (w'.chat.messages c) := by
  rcases step_chat h with ⟨heq, -⟩ | ⟨b, hb, -⟩
  · rw [heq]
    exact .same
  · exact step_feed hb c

/-- The key was issued, and no child is known under it any more. -/
def Dropped (w : World) (c key : String) : Prop :=
  key ∈ (w.chat.messages c).issued ∧ ∀ p ∈ (w.chat.messages c).known, p.1 ≠ key

theorem step_dropped {key : String} (hd : Dropped w c key) (h : step rank w a = some w') :
    Dropped w' c key := by
  refine ⟨(step_next h c).issued hd.1, fun p hp heq => ?_⟩
  rcases (step_next h c).fresh hp with hold | hnew
  · exact hd.2 p hold heq
  · exact hnew (heq ▸ hd.1)

/-- What a refusal does to the children of its community. -/
theorem known_of_rejected {key : String} {p : String × Value}
    (h : step rank w (.rejected c key) = some w') : p ∈ (w'.chat.messages c).known ↔
      p ∈ (w.chat.messages c).known ∧ p.1 ≠ key := by
  cases step_effect h with
  | @rejected _ _ i chat place next handed =>
    obtain ⟨cb, v, hi⟩ := place_eq_some place
    cases ChatSystem.step_effect next with
    | @rejected _ _ cb' feed screen hj _ =>
      obtain ⟨q, hq, -⟩ := Feed.reject_eq_some hj
      obtain ⟨rfl, -⟩ := Prod.mk.inj (Option.some.inj (hq.symm.trans hi))
      simpa only [ChatSystem.setScreen_messages, ChatSystem.setFeed_messages, if_true] using
        Feed.mem_known_reject hi hj

/-- The refused write leaves the children that the device sees. -/
theorem dropped_of_rejected {key : String} (h : step rank w (.rejected c key) = some w') :
    Dropped w' c key := by
  have hissued : key ∈ (w.chat.messages c).issued := by
    cases step_effect h with
    | rejected place next handed =>
      obtain ⟨cb, v, hi⟩ := place_eq_some place
      exact (w.chat.messages c).known_issued (key, v)
        (List.mem_append_right _ (List.mem_map_of_mem (List.mem_of_getElem? hi)))
  exact ⟨(step_next h c).issued hissued, fun p hp => ((known_of_rejected h).mp hp).2⟩

theorem mem_refused {key : String} : (c, key) ∈ refused as ↔ .rejected c key ∈ as := by
  unfold refused
  rw [List.mem_filterMap]
  constructor
  · rintro ⟨a, ha, heq⟩
    split at heq
    · obtain ⟨rfl, rfl⟩ := Prod.mk.inj (Option.some.inj heq)
      exact ha
    · cases heq
  · exact fun h => ⟨_, h, rfl⟩

theorem kept_eq_false {key : String} : kept as c key = false ↔ .rejected c key ∈ as := by
  simp [kept, mem_refused]

/-- What was refused on the run is dropped at its end. -/
theorem run_dropped {key : String} (h : Run (step rank) (initial currentUser users) as w)
    (hr : .rejected c key ∈ as) : Dropped w c key := by
  induction h with
  | nil => simp at hr
  | snoc prior next ih =>
    rcases List.mem_append.mp hr with hr | hr
    · exact step_dropped (ih hr) next
    · obtain rfl := List.mem_singleton.mp hr
      exact dropped_of_rejected next

/-- Only a refusal makes the clients forget a child. -/
theorem step_known {p : String × Value} (h : step rank w a = some w')
    (hp : p ∈ (w.chat.messages c).known) (hr : a ≠ .rejected c p.1) :
    p ∈ (w'.chat.messages c).known := by
  have hvisible : ∃ d, p ∈ (w.chat.messages c).visible d := by
    rcases List.mem_append.mp hp with hp | hp
    · exact ⟨0, List.mem_append_left _ hp⟩
    · obtain ⟨q, hq, rfl⟩ := List.mem_map.mp hp
      exact ⟨q.1.device, List.mem_append_right _
        (List.mem_map_of_mem (List.mem_filter.mpr ⟨hq, by simp⟩))⟩
  obtain ⟨d, hd⟩ := hvisible
  have hother : ∀ {b : ChatSystem.Act} {chat : ChatSystem.World},
      ChatSystem.step w.chat b = some chat → (∀ c i, b ≠ .rejected c i) →
        p ∈ (chat.messages c).known := fun hb hno =>
    Feed.visible_subset_known _ d (ChatSystem.step_visible hb hno c d hd)
  cases step_effect h with
  | chat client next => exact hother next fun c i hi => by simp [hi, ofClient] at client
  | loaded | arrived => exact hp
  | handed hand next => exact hother next (by simp)
  | accepted place next => exact hother next (by simp)
  | @rejected c' key i chat place next handed =>
    by_cases hc : c' = c
    · subst hc
      exact (known_of_rejected h).mpr ⟨hp, fun heq => hr (by rw [heq])⟩
    · cases ChatSystem.step_effect next with
      | rejected hj _ =>
        simpa [ChatSystem.setFeed_messages, Ne.symm hc] using hp

/-- A child that was raised to somebody is known, unless it was refused. -/
theorem run_raised_known (h : Run (step rank) (initial currentUser users) as w) {c : String}
    {e : Event String Value} (he : e ∈ (w.chat.messages c).raised)
    (hr : .rejected c e.key ∉ as) : (e.key, e.value) ∈ (w.chat.messages c).known := by
  induction h with
  | nil => simp [initial, ChatSystem.initial, Feed.empty] at he
  | @snoc as u a v prior next ih =>
    rw [List.mem_append, List.mem_singleton, not_or] at hr
    have hprior : (e.key, e.value) ∈ (u.chat.messages c).known := by
      rcases (step_next next c).raised.2 e he with hold | hknown
      · exact ih hold hr.1
      · exact hknown
    exact step_known next hprior (Ne.symm hr.2)

/-! ### What a run keeps suits its steps -/

theorem run_children {bs : List Act} (h : Run (step rank) u bs w) (c : String) :
    (u.chat.messages c).children ⊆ (w.chat.messages c).children :=
  h.invariant (I := fun v => (u.chat.messages c).children ⊆ (v.chat.messages c).children)
    (List.Subset.refl _) fun hI hs => List.Subset.trans hI (step_next hs c).children

theorem step_openOn (h : step rank w a = some w') {c : String} (hs : w.chat.openOn s = some c) :
    w'.chat.openOn s = some c := by
  obtain ⟨screen, hx, hset⟩ := Option.bind_eq_some_iff.mp hs
  rcases step_chat h with ⟨heq, -⟩ | ⟨b, hb, -⟩
  · rw [heq]
    exact hs
  · obtain ⟨screen', hx', -, hset'⟩ := ChatSystem.step_screen hb hx
    exact Option.bind_eq_some_iff.mpr ⟨screen', hx', by rw [hset']; exact hset⟩

theorem run_openOn {bs : List Act} (h : Run (step rank) u bs w) {c : String}
    (hs : u.chat.openOn s = some c) : w.chat.openOn s = some c :=
  h.invariant (I := fun v => v.chat.openOn s = some c) hs fun hI hs => step_openOn hs hI

/-- What the run refuses suits every one of its steps. -/
theorem run_suits (h : Run (step rank) (initial currentUser users) as w) :
    Along (step rank) (initial currentUser users) (Suits w.chat.openOn (kept as)) as := by
  rintro pre a post u heq hu
  have hrest : Run (step rank) u (a :: post) w := Run.rest (heq ▸ h) hu
  obtain ⟨v, hv, hpost⟩ := run_cons_iff.mp hrest
  have hstored : ∀ {x : World} {bs : List Act}, Run (step rank) x bs w → ∀ c,
      ∀ p ∈ (x.chat.messages c).children, kept as c p.1 = true := by
    intro x bs hx c p hp
    by_contra hno
    rw [Bool.not_eq_true, kept_eq_false] at hno
    exact (run_dropped h hno).2 p (List.mem_append_left _ (run_children hx c hp)) rfl
  refine ⟨hstored hrest, ?_, ?_, ?_⟩
  · rintro c key rfl
    cases step_effect hv with
    | @accepted _ _ i chat place next =>
      obtain ⟨cb, value, hi⟩ := place_eq_some place
      cases ChatSystem.step_effect next with
      | @accepted _ _ cb' feed screen ha _ =>
        obtain ⟨p, hp, hc, -⟩ := Feed.accept_eq_some ha
        obtain rfl : p = (key, value) := congrArg Prod.snd (Option.some.inj (hp.symm.trans hi))
        exact hstored hpost c (key, value) (by simp [hc])
  · rintro c key rfl
    exact kept_eq_false.mpr (by simp [heq])
  · rintro s key rfl
    cases step_effect hv with
    | @chat _ chat client next =>
      obtain ⟨screen, hx, -⟩ := ChatSystem.sendMessageAction_eq_some.mp next
      obtain ⟨bs, hbs, -⟩ := run_chat hu
      have hs := (ChatSystem.World.onScreen_eq_some.mp hx).1
      obtain ⟨community, hset⟩ := (ChatSystem.run_valid hbs).community s screen hs
      have hopen : u.chat.openOn s = some community.communityID := by
        simp [ChatSystem.World.openOn, hs, hset]
      exact ⟨_, run_openOn hrest hopen, hopen⟩

/-- Without the writes that are not kept a screen lists the other entries. -/
theorem appended_without {w w' : ChatSystem.World} (h : ChatSystem.Without keep w w') :
    ChatSystem.appended w' c s = (ChatSystem.appended w c s).filter fun p => keep c p.1 := by
  have hevents : (w'.messages c).eventsOf s =
      ((w.messages c).eventsOf s).filter fun e => keep c e.key := by
    rw [Feed.eventsOf, Feed.eventsOf, (h.feeds c).raised, (h.feeds c).observers,
      List.filter_filter, List.filter_filter]
    exact List.filter_congr fun e _ => Bool.and_comm _ _
  rw [ChatSystem.appended, ChatSystem.appended, hevents, List.filterMap_filter,
    List.filter_filterMap]
  refine List.filterMap_congr fun e _ => ?_
  by_cases hk : keep c e.key = true <;> cases decodeMessage e.value <;> simp [Option.filter, hk]

/-- Every unanswered write is a message of this app. -/
def OutstandingReadable (w : World) : Prop :=
  ∀ c, ∀ p ∈ (w.chat.messages c).outstanding, ∃ message, decodeMessage p.2.2 = some message

theorem step_outstandingReadable (h : OutstandingReadable w) (hs : step rank w a = some w') :
    OutstandingReadable w' := by
  intro c p hp
  rcases step_chat hs with ⟨heq, -⟩ | ⟨b, hb, -⟩
  · rw [heq] at hp
    exact h c p hp
  · have hold : ∀ {c' : String} {feed : Feed String Value ℕ ℕ},
        feed.outstanding ⊆ (w.chat.messages c').outstanding →
        p ∈ ((w.chat.setFeed c' feed).messages c).outstanding →
        ∃ message, decodeMessage p.2.2 = some message := by
      intro c' feed hsub hp
      rw [ChatSystem.setFeed_messages] at hp
      split_ifs at hp with hc
      · exact h c' p (hsub hp)
      · exact h c p hp
    generalize w'.chat = chat at hb hp
    cases ChatSystem.step_effect hb with
    | signedIn | usersWritten | opened | sentNothing | nameServed | popped | edited
    | nameAnswered => exact h c p hp
    | appeared =>
      rw [ChatSystem.appeared_outstanding] at hp
      exact h c p hp
    | sent _ _ _ _ hw =>
      obtain ⟨-, -, ho, -⟩ := Feed.write_eq_some hw
      rw [ChatSystem.setFeed_messages] at hp
      split_ifs at hp with hc
      · rw [ho] at hp
        rcases List.mem_append.mp hp with hp | hp
        · exact h _ p hp
        · rw [List.mem_singleton.mp hp]
          exact ⟨_, decodeMessage_dataArray _ _ _⟩
      · exact h c p hp
    | inserted hi =>
      obtain ⟨-, -, ho, -⟩ := Feed.insert_eq_some hi
      exact hold (ho ▸ List.Subset.refl _) hp
    | accepted ha _ =>
      obtain ⟨_, -, -, ho, -⟩ := Feed.accept_eq_some ha
      exact hold (ho ▸ List.eraseIdx_subset) hp
    | rejected hj _ =>
      obtain ⟨_, -, -, ho, -⟩ := Feed.reject_eq_some hj
      exact hold (ho ▸ List.eraseIdx_subset) hp
    | delivered hd _ =>
      obtain ⟨-, -, -, -, -, ho, -⟩ := Feed.deliver_eq_some hd
      exact hold (ho ▸ List.Subset.refl _) hp

/-- An entry of a screen stays. -/
theorem run_appended {bs : List Act} (h : Run (step rank) u bs w) {p : String × Message}
    (hp : p ∈ ChatSystem.appended u.chat c s) : p ∈ ChatSystem.appended w.chat c s := by
  refine h.invariant (I := fun v => p ∈ ChatSystem.appended v.chat c s) hp fun hI hs => ?_
  obtain ⟨e, he, hkey, hm⟩ := ChatSystem.mem_appended.mp hI
  obtain ⟨hraised, cb, hcb, howner⟩ := Feed.mem_eventsOf.mp he
  obtain ⟨more, hmore⟩ := step_observers_prefix hs c
  refine ChatSystem.mem_appended.mpr ⟨e, Feed.mem_eventsOf.mpr
    ⟨(step_next hs c).raised.1.subset hraised, cb, ?_, howner⟩, hkey, hm⟩
  rw [← hmore, List.getElem?_append_left (List.getElem?_eq_some_iff.mp hcb).1]
  exact hcb

/-- A refused write that has reached a screen is listed there. -/
theorem rejected_listed {key : String} (h : Run (step rank) (initial currentUser users) as u)
    (hs : step rank u (.rejected c key) = some w) (hk : key ∈ reachedBy u c s) :
    ∃ message, (key, message) ∈ ChatSystem.appended u.chat c s := by
  have hreadable : OutstandingReadable u := h.invariant
    (fun c p hp => by simp [initial, ChatSystem.initial, Feed.empty] at hp)
    fun hI hs => step_outstandingReadable hI hs
  obtain ⟨o, ho, hreached⟩ := List.mem_flatMap.mp hk
  obtain ⟨hlt, howner⟩ := List.mem_filter.mp ho
  cases step_effect hs with
  | @rejected _ _ i chat place next handed =>
    obtain ⟨cb, v, hi⟩ := place_eq_some place
    have hmem := List.mem_of_getElem? hi
    obtain ⟨message, hm⟩ := hreadable c _ hmem
    have htold := (List.mem_append.mp hreached).resolve_right (handed o (List.mem_range.mp hlt))
    obtain ⟨e, he, hkey⟩ := List.mem_map.mp htold
    obtain ⟨hraised, hobs⟩ := List.mem_filter.mp he
    have hobs' : e.observer = o := by simpa using hobs
    have hvalue : v = e.value := (u.chat.messages c).raised_value e hraised v
      (List.mem_append_right _ (List.mem_map.mpr ⟨_, hmem, by rw [hkey]⟩))
    refine ⟨message, ChatSystem.mem_appended.mpr ⟨e, List.mem_filter.mpr ⟨hraised, ?_⟩, hkey, ?_⟩⟩
    · rw [hobs']
      exact howner
    · rw [← hvalue]
      exact hm

/-- An entry whose event is older than the step was there before it. -/
theorem appended_before (hs : step rank w a = some w') {p : String × Message}
    (hold : ∀ e ∈ (w'.chat.messages c).raised, e.key = p.1 → e ∈ (w.chat.messages c).raised)
    (hp : p ∈ ChatSystem.appended w'.chat c s) : p ∈ ChatSystem.appended w.chat c s := by
  obtain ⟨e, he, hkey, hm⟩ := ChatSystem.mem_appended.mp hp
  obtain ⟨hraised, cb, hcb, howner⟩ := Feed.mem_eventsOf.mp he
  have hraised' := hold e hraised hkey
  obtain ⟨more, hmore⟩ := step_observers_prefix hs c
  rw [← hmore, List.getElem?_append_left ((w.chat.messages c).raised_observer e hraised')] at hcb
  exact ChatSystem.mem_appended.mpr
    ⟨e, Feed.mem_eventsOf.mpr ⟨hraised', cb, hcb, howner⟩, hkey, hm⟩

/-- What a screen lists had reached it. -/
theorem appended_reached {p : String × Message} (hp : p ∈ ChatSystem.appended w.chat c s) :
    p.1 ∈ reachedBy w c s := by
  obtain ⟨e, he, hkey, -⟩ := ChatSystem.mem_appended.mp hp
  obtain ⟨hraised, cb, hcb, howner⟩ := Feed.mem_eventsOf.mp he
  refine List.mem_flatMap.mpr ⟨e.observer, List.mem_filter.mpr ⟨?_, by simp [hcb, howner]⟩, ?_⟩
  · exact List.mem_range.mpr ((w.chat.messages c).raised_observer e hraised)
  · rw [← hkey]
    exact List.mem_append_left _ (List.mem_map_of_mem (List.mem_filter.mpr ⟨hraised, by simp⟩))

/-- A refused write that is listed had reached the screen before it was refused. -/
theorem listed_reached {p : String × Message} {post : List Act}
    (hs : Run (step rank) u (.rejected c p.1 :: post) w)
    (hp : p ∈ ChatSystem.appended w.chat c s) : p.1 ∈ reachedBy u c s := by
  obtain ⟨v, hv, hpost⟩ := run_cons_iff.mp hs
  have hback : Dropped w c p.1 ∧ (p ∈ ChatSystem.appended w.chat c s →
      p ∈ ChatSystem.appended v.chat c s) := by
    refine hpost.invariant (I := fun x => Dropped x c p.1 ∧ (p ∈ ChatSystem.appended x.chat c s →
      p ∈ ChatSystem.appended v.chat c s)) ⟨dropped_of_rejected hv, id⟩ fun hI hs => ?_
    refine ⟨step_dropped hI.1 hs, fun hp => hI.2 (appended_before hs (fun e he hkey => ?_) hp)⟩
    exact ((step_next hs c).raised.2 e he).resolve_right fun hknown => hI.1.2 _ hknown hkey
  refine appended_reached (appended_before hv (fun e he _ => ?_) (hback.2 hp))
  cases step_effect hv with
  | rejected place next handed =>
    rw [answer_raised (Or.inr next)] at he
    exact he

/-- A write is refused only while it has not reached screen `s`. -/
def RefusedUnseen (c : String) (s : ℕ) (w : World) (a : Act) : Prop :=
  ∀ key, a = .rejected c key → key ∉ reachedBy w c s

variable {screen : ChatSystem.Screen}

/-- No write that was refused is listed exactly when none had reached the screen. -/
theorem entries_kept_iff (h : Run (step rank) (initial currentUser users) as w) :
    (∀ p ∈ ChatSystem.appended w.chat c s, kept as c p.1 = true) ↔
      Along (step rank) (initial currentUser users) (RefusedUnseen c s) as := by
  constructor
  · rintro hall pre a post u rfl hu key rfl hkey
    have hrest := h.rest hu
    obtain ⟨v, hv, -⟩ := run_cons_iff.mp hrest
    obtain ⟨message, hm⟩ := rejected_listed hu hv hkey
    have hkept := hall _ (run_appended hrest hm)
    rw [kept_eq_false.mpr (by simp)] at hkept
    cases hkept
  · intro hC p hp
    by_contra hno
    rw [Bool.not_eq_true, kept_eq_false] at hno
    obtain ⟨pre, post, rfl⟩ := List.append_of_mem hno
    obtain ⟨u, hu, hrest⟩ := Run.split h
    exact hC pre _ post u rfl hu p.1 rfl (listed_reached hrest hp)

/-- An entry that was not refused is stored once every write is answered. -/
theorem entry_stored (h : Run (step rank) (initial currentUser users) as w)
    (ho : (w.chat.messages c).outstanding = []) {p : String × Message}
    (hp : p ∈ ChatSystem.appended w.chat c s) (hk : kept as c p.1 = true) :
    ∃ v, (p.1, v) ∈ (w.chat.messages c).children ∧ decodeMessage v = some p.2 := by
  obtain ⟨e, he, hkey, hm⟩ := ChatSystem.mem_appended.mp hp
  have hr : .rejected c e.key ∉ as := fun hr => by
    rw [← hkey, kept_eq_false.mpr hr] at hk
    cases hk
  have hknown := run_raised_known h (Feed.mem_eventsOf.mp he).1 hr
  rw [Feed.known, ho, List.map_nil, List.append_nil, hkey] at hknown
  exact ⟨e.value, hknown, hm⟩

/-- The messages of the screen are all stored, and they are what it would list had the refused
sends of the run never been made. -/
def NoTrace (rank : String ↪ ρ) (w₀ : World) (as : List Act) (w : World) (c : String) (s : ℕ)
    (screen : ChatSystem.Screen) : Prop :=
  (∀ message ∈ screen.vc.messageArr, ∃ k v, (k, v) ∈ (w.chat.messages c).children ∧
    decodeMessage v = some message) ∧
  ∃ w' screen', Run (step rank) w₀ (withoutRefused w as) w' ∧ Reads w' c s screen' ∧
    screen.vc.messageArr = screen'.vc.messageArr

/-- Once every write is answered, the refused sends have left no trace exactly when none of them
had reached the screen before it was refused. -/
theorem refused_sends_leave_no_trace_iff
    (h : Run (step rank) (initial currentUser users) as w) (hs : Reads w c s screen)
    (ho : (w.chat.messages c).outstanding = []) :
    NoTrace rank (initial currentUser users) as w c s screen ↔
      Along (step rank) (initial currentUser users) (RefusedUnseen c s) as := by
  obtain ⟨w', hw', hwithout⟩ := run_without h (run_suits h)
  obtain ⟨messages, hs'⟩ := hwithout.chat.same_screen hs.at_s
  have hreads : Reads w' c s (screen.listing messages) := ⟨hs', hs.opened⟩
  have harr := hs.messageArr h
  have harr' := hreads.messageArr hw'
  rw [appended_without hwithout.chat] at harr'
  rw [← entries_kept_iff h]
  constructor
  · rintro ⟨-, x, screen', hx, hscreen', heq⟩ p hp
    obtain rfl := hw'.deterministic hx
    obtain rfl := Option.some.inj (hs'.symm.trans hscreen'.at_s)
    have hlen := congrArg List.length (harr.symm.trans (heq.trans harr'))
    rw [List.length_map, List.length_map] at hlen
    exact List.length_filter_eq_length_iff.mp hlen.symm p hp
  · intro hall
    refine ⟨fun message hm => ?_, w', _, hw', hreads, ?_⟩
    · rw [harr] at hm
      obtain ⟨p, hp, rfl⟩ := List.mem_map.mp hm
      obtain ⟨v, hv, hdec⟩ := entry_stored h ho hp (hall p hp)
      exact ⟨p.1, v, hv, hdec⟩
    · rw [harr, harr', List.filter_eq_self.mpr hall]

/-- Two clients send, and the server refuses the message of the other one. -/
def otherRefused : List Act :=
  [.chat (.didSelectItemAt 0 ⟨"Swift", "c"⟩), .chat (.didSelectItemAt 1 ⟨"Swift", "c"⟩),
    .chat (.viewDidAppear 0), .chat (.viewDidAppear 1), .loaded "c" 0 0, .loaded "c" 1 0,
    .chat (.edit 0 "a"), .chat (.edit 1 "b"), .chat (.sendMessageAction 0 "j"),
    .chat (.sendMessageAction 1 "k"), .childAdded "c" 0 "j", .childAdded "c" 1 "k",
    .rejected "c" "k", .accepted "c" "j", .arrived "c" 1, .childAdded "c" 1 "j"]

/-- A test that is enough for the condition. -/
def checkUnseen (w : World) : Act → Bool
  | .rejected _ key => key ∉ reachedBy w "c" 0
  | _ => true

theorem otherRefused_no_trace : ∃ w screen, Run (step plainOrder) oneUser otherRefused w ∧
    Reads w "c" 0 screen ∧ NoTrace plainOrder oneUser otherRefused w "c" 0 screen := by
  have hend : (exec (step plainOrder) oneUser otherRefused).map endOf =
      some ([(some "c", ["a"]), (some "c", ["b", "a"])], true, []) := rfl
  obtain ⟨w, hw, heq⟩ := run_of_exec_map hend
  simp only [endOf, Prod.mk.injEq, List.map_eq_nil_iff] at heq
  obtain ⟨hscreens, -, ho⟩ := heq
  obtain ⟨screen, rest, hcons, hscreen, -⟩ := List.map_eq_cons_iff.mp hscreens
  have hs : Reads w "c" 0 screen := ⟨by simp [hcons], congrArg Prod.fst hscreen⟩
  refine ⟨w, screen, hw, hs, (refused_sends_leave_no_trace_iff hw hs ho).mpr ?_⟩
  refine along_of_check (fun u a (hcheck : checkUnseen u a = true) => ?_) rfl
  rintro key rfl
  exact of_decide_eq_true hcheck

/-- The only send of the screen is refused after its local event. -/
def ownRefused : List Act :=
  [.chat (.didSelectItemAt 0 ⟨"Swift", "c"⟩), .chat (.viewDidAppear 0), .loaded "c" 0 0,
    .chat (.edit 0 "a"), .chat (.sendMessageAction 0 "k"), .childAdded "c" 0 "k",
    .rejected "c" "k"]

/-- The refused message stays on the screen, and nothing is stored. -/
theorem own_refused_send_stays : ¬ ∀ currentUser users as w c s screen,
    Run (step plainOrder) (initial currentUser users) as w → Reads w c s screen →
      as.countP (appears s) = 1 → Settled w c → (w.chat.messages c).outstanding = [] →
        NoTrace plainOrder (initial currentUser users) as w c s screen := by
  intro hall
  have hend : (exec (step plainOrder) oneUser ownRefused).map (fun w =>
      (endOf w, (w.chat.messages "c").children.map Prod.fst)) =
      some (([(some "c", ["a"])], true, []), []) := rfl
  obtain ⟨w, hw, heq⟩ := run_of_exec_map hend
  simp only [endOf, Prod.mk.injEq, List.map_eq_nil_iff, decide_eq_true_eq] at heq
  obtain ⟨⟨hscreens, hq, ho⟩, hchildren⟩ := heq
  obtain ⟨screen, rest, hcons, hscreen, -⟩ := List.map_eq_cons_iff.mp hscreens
  obtain ⟨harr, -⟩ := hall _ _ ownRefused w "c" 0 screen hw
    ⟨by simp [hcons], congrArg Prod.fst hscreen⟩ rfl hq ho
  obtain ⟨message, rest', hmessages, -⟩ := List.map_eq_cons_iff.mp (congrArg Prod.snd hscreen)
  obtain ⟨k, v, hmem, -⟩ := harr message (by simp [hmessages])
  simp [hchildren] at hmem

end LoopChat.ConversationSystem
