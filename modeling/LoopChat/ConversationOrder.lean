import LoopChat.ChatIntegrity
import LoopChat.ConversationSystem

/-!
# The order of a conversation on two screens

The `childAdded` handler appends what it is given and looks at neither the key nor the
previous sibling, so a screen lists the conversation in the order in which it reached the
screen. Two screens list the same messages; they list them alike when every two messages
reached both in the same order.
-/
namespace LoopChat.ConversationSystem
open FirebaseValues ChildFeed TransitionRuns

/-- Nothing is on its way to an observer of the community, and nothing is left to be sent. -/
def Settled (w : World) (c : String) : Prop :=
  (w.chat.messages c).Quiescent ∧
    ∀ o < (w.chat.messages c).observers.length, (w.queues c).due o = []

instance (w : World) (c : String) : Decidable (Settled w c) :=
  inferInstanceAs (Decidable (_ ∧ ∀ o < _, _))

/-- The label is an appearance of screen `s`. -/
def appears (s : ℕ) : Act → Bool
  | .chat (.viewDidAppear s') => s' == s
  | _ => false

/-- The observers of screen `s`. -/
def observersBy (w : World) (c : String) (s : ℕ) : List ℕ :=
  (List.range (w.chat.messages c).observers.length).filter fun o =>
    ((w.chat.messages c).observers[o]?).map Callback.owner = some s

/-- The keys of what has reached screen `s`, oldest first. -/
def reachedBy (w : World) (c : String) (s : ℕ) : List String :=
  (observersBy w c s).flatMap ((w.queues c).reached (w.chat.messages c))

variable {ρ : Type*} [LinearOrder ρ] {rank : String ↪ ρ} {currentUser : ℕ → Option String}
  {users : String → Option Fields} {w w' : World} {a : Act} {as : List Act} {c : String} {s o : ℕ}

/-- On the run, the child under `p` reached screen `s` before the one under `q` did, or both
came with one load and `p` is the smaller key. -/
def Before (rank : String ↪ ρ) (w₀ : World) (as : List Act) (c : String) (s : ℕ)
    (p q : String) : Prop :=
  Precedes (step rank) w₀ (fun w => reachedBy w c s) (rank · < rank ·) as p q

theorem appears_eq_true : appears s a = true ↔ a = .chat (.viewDidAppear s) := by
  unfold appears
  split
  · simp
  · rename_i hno
    simpa using fun h => hno s h

/-! ### One appearance, one observer -/

/-- Each observer of a screen comes from an appearance of it. -/
theorem observed_at_most_once (h : Run (step rank) (initial currentUser users) as w) (c : String)
    (s : ℕ) : (as.countP (appears s) = 0 → ∀ cb ∈ (w.chat.messages c).observers, cb.owner ≠ s) ∧
      (as.countP (appears s) ≤ 1 → (w.chat.messages c).AtMostOneObserver s) := by
  induction h with
  | nil => simp [initial, ChatSystem.initial, Feed.empty, Feed.AtMostOneObserver]
  | @snoc as u a v prior next ih =>
    obtain ⟨hnone, hone⟩ := ih
    rw [List.countP_append, List.countP_singleton]
    have hkeep : (v.chat.messages c).observers = (u.chat.messages c).observers →
        (as.countP (appears s) = 0 → ∀ cb ∈ (v.chat.messages c).observers, cb.owner ≠ s) ∧
        (as.countP (appears s) ≤ 1 → (v.chat.messages c).AtMostOneObserver s) := by
      intro ho
      unfold Feed.AtMostOneObserver
      rw [ho]
      exact ⟨hnone, hone⟩
    have hle : ∀ {n : ℕ}, as.countP (appears s) + (if appears s a = true then 1 else 0) ≤ n →
        as.countP (appears s) ≤ n := fun h => (Nat.le_add_right _ _).trans h
    rcases step_chat next with ⟨heq, -⟩ | ⟨b, hb, happ, -⟩
    · obtain ⟨hn, ho⟩ := hkeep (by rw [heq])
      exact ⟨fun h => hn (Nat.le_zero.mp (hle h.le)), fun h => ho (hle h)⟩
    · rcases ChatSystem.step_observers hb c with ho | ⟨s', screen, rfl, -, -, hv⟩
      · obtain ⟨hn, ho⟩ := hkeep ho
        exact ⟨fun h => hn (Nat.le_zero.mp (hle h.le)), fun h => ho (hle h)⟩
      · obtain rfl := (happ s').mpr rfl
        rw [hv]
        by_cases hs : s' = s
        · -- the appearance of the screen itself is its first
          subst hs
          rw [if_pos (appears_eq_true.mpr rfl)]
          exact ⟨fun h => absurd h (by omega), fun h =>
            Feed.atMostOneObserver_observe (hone (by omega)) fun _ => hnone (by omega)⟩
        · refine ⟨fun h cb hcb => ?_, fun h =>
            Feed.atMostOneObserver_observe (hone (hle h)) fun heq => absurd heq hs⟩
          rcases List.mem_append.mp hcb with hcb | hcb
          · exact hnone (Nat.le_zero.mp (hle h.le)) cb hcb
          · rw [List.mem_singleton.mp hcb]
            exact hs

/-- What has reached the only observer of a screen is what has reached the screen. -/
theorem reachedBy_of_observer {cb : Callback ℕ ℕ}
    (hone : (w.chat.messages c).AtMostOneObserver s)
    (ho : (w.chat.messages c).observers[o]? = some cb) (hcb : cb.owner = s) :
    reachedBy w c s = (w.queues c).reached (w.chat.messages c) o := by
  have hmem : ∀ i, i ∈ observersBy w c s ↔ i = o := by
    intro i
    simp only [observersBy, List.mem_filter, List.mem_range, decide_eq_true_eq,
      Option.map_eq_some_iff]
    constructor
    · rintro ⟨-, x, hx, hxs⟩
      exact hone i o x cb hx ho hxs hcb
    · rintro rfl
      exact ⟨(List.getElem?_eq_some_iff.mp ho).1, cb, ho, hcb⟩
  have hnodup : (observersBy w c s).Nodup := List.nodup_range.filter _
  have hsingle : observersBy w c s = [o] := List.perm_singleton.mp
    ((List.perm_ext_iff_of_nodup hnodup (List.nodup_singleton o)).mpr fun i => by
      rw [hmem, List.mem_singleton])
  simp [reachedBy, hsingle]

theorem reachedBy_eq_nil (h : ∀ cb ∈ (w.chat.messages c).observers, cb.owner ≠ s) :
    reachedBy w c s = [] := by
  have hnil : observersBy w c s = [] := by
    rw [observersBy, List.filter_eq_nil_iff]
    intro i _ hi
    obtain ⟨cb, hcb, howner⟩ := Option.map_eq_some_iff.mp (of_decide_eq_true hi)
    exact h cb (List.mem_of_getElem? hcb) howner
  simp [reachedBy, hnil]

/-! ### The order of what reaches a screen -/

theorem step_observers_prefix (h : step rank w a = some w') (c : String) :
    (w.chat.messages c).observers <+: (w'.chat.messages c).observers := by
  rcases step_chat h with ⟨heq, -⟩ | ⟨b, hb, -⟩
  · rw [heq]
  · rcases ChatSystem.step_observers hb c with ho | ⟨_, _, -, -, -, hw⟩
    · rw [ho]
    · rw [hw]
      exact List.prefix_append _ _

/-- What has reached a screen with one observer grows at its end. -/
theorem step_reachedBy (hs : Sound w) (h : step rank w a = some w')
    (hone : (w'.chat.messages c).AtMostOneObserver s) :
    Grown (rank · < rank ·) (reachedBy w c s) (reachedBy w' c s) := by
  have hadv := step_advance hs h c
  have hobservers := step_observers_prefix h c
  have hkeep : ∀ {i : ℕ} {cb : Callback ℕ ℕ}, (w.chat.messages c).observers[i]? = some cb →
      (w'.chat.messages c).observers[i]? = some cb := by
    intro i cb hi
    obtain ⟨more, hmore⟩ := hobservers
    rw [← hmore, List.getElem?_append_left (List.getElem?_eq_some_iff.mp hi).1]
    exact hi
  by_cases hex : ∃ cb ∈ (w'.chat.messages c).observers, cb.owner = s
  · obtain ⟨cb, hcb, howner⟩ := hex
    obtain ⟨o, ho⟩ := List.mem_iff_getElem?.mp hcb
    rw [reachedBy_of_observer hone ho howner]
    have hold : reachedBy w c s = (w.queues c).reached (w.chat.messages c) o := by
      by_cases hlt : o < (w.chat.messages c).observers.length
      · have ho' := List.getElem?_eq_getElem hlt
        obtain rfl := Option.some.inj ((hkeep ho').symm.trans ho)
        refine reachedBy_of_observer (fun i j x y hi hj => ?_) ho' howner
        exact hone i j x y (hkeep hi) (hkeep hj)
      · -- the observer registers in this step
        have hnil : (w.queues c).reached (w.chat.messages c) o = [] := by
          by_contra hne
          exact hlt ((hs c).observer o hne)
        rw [hnil]
        refine reachedBy_eq_nil fun x hx hxs => ?_
        obtain ⟨i, hi⟩ := List.mem_iff_getElem?.mp hx
        have hio := hone i o x cb (hkeep hi) ho hxs howner
        exact hlt (hio ▸ (List.getElem?_eq_some_iff.mp hi).1)
    rw [hold]
    exact hadv.grown o
  · have hnone : ∀ cb ∈ (w'.chat.messages c).observers, cb.owner ≠ s :=
      fun cb hcb hs => hex ⟨cb, hcb, hs⟩
    rw [reachedBy_eq_nil hnone, reachedBy_eq_nil fun cb hcb => hnone cb (hobservers.subset hcb)]
    exact Grown.refl _ _

theorem reachedBy_grows (h : Run (step rank) (initial currentUser users) as w) (c : String)
    (hone : as.countP (appears s) ≤ 1) : Grows (step rank) (initial currentUser users)
      (fun w => reachedBy w c s) (rank · < rank ·) as := by
  rintro pre a post u rfl hu v hv
  have hle : (pre ++ [a]).countP (appears s) ≤ 1 := by
    rw [List.countP_append, List.countP_cons] at hone
    rw [List.countP_append, List.countP_singleton]
    omega
  exact step_reachedBy (run_sound hu) hv ((observed_at_most_once (hu.snoc hv) c s).2 hle)

/-- The order on a screen is decided by the run. -/
theorem reachedBy_pairwise (h : Run (step rank) (initial currentUser users) as w) (c : String)
    (hone : as.countP (appears s) ≤ 1) :
    (reachedBy w c s).Pairwise (Before rank (initial currentUser users) as c s) :=
  log_pairwise h (by simp [reachedBy, observersBy, initial, ChatSystem.initial, Feed.empty])
    (reachedBy_grows h c hone)

theorem Before.asymm (h : Run (step rank) (initial currentUser users) as w)
    (hone : as.countP (appears s) ≤ 1) {p q : String}
    (hpq : Before rank (initial currentUser users) as c s p q) :
    ¬ Before rank (initial currentUser users) as c s q p :=
  Precedes.asymm (reachedBy_grows h c hone) (fun _ _ hlt => lt_asymm hlt) hpq

/-! ### What a screen lists -/

/-- In a settled state the keys of the screen's events are what has reached the screen. -/
theorem eventsOf_keys {cb : Callback ℕ ℕ} (hq : Settled w c)
    (hone : (w.chat.messages c).AtMostOneObserver s)
    (ho : (w.chat.messages c).observers[o]? = some cb) (hcb : cb.owner = s) :
    ((w.chat.messages c).eventsOf s).map Event.key = reachedBy w c s := by
  rw [reachedBy_of_observer hone ho hcb, Queues.reached,
    hq.2 o (List.getElem?_eq_some_iff.mp ho).1, List.append_nil, Feed.told, Feed.eventsOf]
  refine congrArg (List.map Event.key) (List.filter_congr fun e he => ?_)
  refine decide_eq_decide.mpr ⟨fun h => ?_, fun h => by simp [h, ho, hcb]⟩
  obtain ⟨x, hx, hxs⟩ := Option.map_eq_some_iff.mp h
  exact hone _ _ x cb hx ho hxs hcb

/-- Screen `s` is open on the community `c`. -/
structure Reads (w : World) (c : String) (s : ℕ) (screen : ChatSystem.Screen) : Prop where
  at_s : w.chat.screens[s]? = some screen
  opened : screen.vc.community.map Community.communityID = some c

variable {screen screen' : ChatSystem.Screen} {t : ℕ}

/-- A screen that has appeared once has one observer, on its own device. -/
theorem Reads.observer (hs : Reads w c s screen)
    (h : Run (step rank) (initial currentUser users) as w) (hone : as.countP (appears s) = 1) :
    (w.chat.messages c).AtMostOneObserver s ∧ ∃ (o : ℕ) (cb : Callback ℕ ℕ),
      (w.chat.messages c).observers[o]? = some cb ∧ cb.owner = s ∧ cb.device = screen.client := by
  obtain ⟨bs, hbs, happ, -⟩ := run_chat h
  have hmem : .chat (.viewDidAppear s) ∈ as := by
    obtain ⟨a, ha, hsa⟩ := List.countP_pos_iff.mp (hone ▸ Nat.one_pos)
    exact appears_eq_true.mp hsa ▸ ha
  obtain ⟨x, community, cb, hx, hset, hcb, howner⟩ :=
    ChatSystem.appeared_observer hbs (happ s hmem)
  obtain rfl : x = screen := Option.some.inj (hx.symm.trans hs.at_s)
  obtain rfl : community.communityID = c := by simpa [hset] using hs.opened
  obtain ⟨o, ho⟩ := List.mem_iff_getElem?.mp hcb
  exact ⟨(observed_at_most_once h _ s).2 hone.le, o, cb, ho, howner,
    ChatSystem.observer_device hbs hs.at_s hcb howner⟩

/-- Once everything is delivered, a screen lists the readable children its device sees. -/
theorem Reads.mem_appended (hs : Reads w c s screen)
    (h : Run (step rank) (initial currentUser users) as w) (hr : ∀ c k, .rejected c k ∉ as)
    (hone : as.countP (appears s) = 1) (hq : Settled w c) {k : String} {message : Message} :
    (k, message) ∈ ChatSystem.appended w.chat c s ↔ ∃ v,
      (k, v) ∈ (w.chat.messages c).visible screen.client ∧ decodeMessage v = some message := by
  obtain ⟨bs, hbs, -, hrej⟩ := run_chat h
  obtain ⟨-, o, cb, ho, howner, hdevice⟩ := hs.observer h hone
  rw [ChatSystem.mem_appended]
  constructor
  · rintro ⟨e, he, rfl, hm⟩
    obtain ⟨hraised, x, hx, hxs⟩ := Feed.mem_eventsOf.mp he
    have hvisible := ChatSystem.run_eventsVisible hbs (fun c i hi => by
      obtain ⟨key, hkey⟩ := hrej c i hi
      exact hr c key hkey) c e hraised x hx
    have hx' := ChatSystem.observer_device hbs hs.at_s (List.mem_of_getElem? hx) hxs
    exact ⟨e.value, hx' ▸ hvisible, hm⟩
  · rintro ⟨v, hv, hm⟩
    have he := hq.1.event ho (p := (k, v)) (hdevice ▸ hv)
    exact ⟨_, howner ▸ he, rfl, hm⟩

/-- The entries of a screen are in the order decided by the run. -/
theorem Reads.pairwise (hs : Reads w c s screen)
    (h : Run (step rank) (initial currentUser users) as w) (hone : as.countP (appears s) = 1)
    (hq : Settled w c) : (ChatSystem.appended w.chat c s).Pairwise fun p q =>
      Before rank (initial currentUser users) as c s p.1 q.1 := by
  obtain ⟨hobs, o, cb, ho, howner, -⟩ := hs.observer h hone
  have hkeys := reachedBy_pairwise h c hone.le
  rw [← eventsOf_keys hq hobs ho howner] at hkeys
  exact List.pairwise_map.mp (hkeys.sublist (ChatSystem.appended_keys_sublist w.chat c s))

theorem Reads.nodup (hs : Reads w c s screen)
    (h : Run (step rank) (initial currentUser users) as w) (hone : as.countP (appears s) = 1) :
    (ChatSystem.appended w.chat c s).Nodup :=
  List.Nodup.of_map Prod.fst ((ChatSystem.appended_keys_sublist w.chat c s).nodup
    (Feed.eventsOf_keys_nodup (hs.observer h hone).1))

theorem Reads.messageArr (hs : Reads w c s screen)
    (h : Run (step rank) (initial currentUser users) as w) :
    screen.vc.messageArr = (ChatSystem.appended w.chat c s).map Prod.snd := by
  obtain ⟨bs, hbs, -⟩ := run_chat h
  obtain ⟨community, hset, rfl⟩ := Option.map_eq_some_iff.mp hs.opened
  exact (ChatSystem.run_valid hbs).array s screen community hs.at_s hset

/-- Two devices see the same children when neither waits for the answer to a write. -/
theorem visible_iff_of_answered {f : Feed String Value ℕ ℕ} {d d' : ℕ}
    (hown : d = d' ∨ ∀ p ∈ f.outstanding, p.1.device ≠ d ∧ p.1.device ≠ d') {p : String × Value} :
    p ∈ f.visible d ↔ p ∈ f.visible d' := by
  rcases hown with rfl | hown
  · rfl
  · have hnil : ∀ e, (∀ p ∈ f.outstanding, p.1.device ≠ e) → f.visible e = f.children := by
      intro e he
      rw [Feed.visible, List.filter_eq_nil_iff.mpr (by simpa using he), List.map_nil,
        List.append_nil]
    rw [hnil d fun p hp => (hown p hp).1, hnil d' fun p hp => (hown p hp).2]

/-- Two readers of a community see the same messages, and each sees them in the order in which
they reached its screen. The two lists are the same exactly when every two messages reached
both screens in the same order. -/
theorem same_conversation_iff (h : Run (step rank) (initial currentUser users) as w)
    (hr : ∀ c k, .rejected c k ∉ as) (hs : Reads w c s screen) (ht : Reads w c t screen')
    (hs₁ : as.countP (appears s) = 1) (ht₁ : as.countP (appears t) = 1) (hq : Settled w c)
    (hown : screen.client = screen'.client ∨ ∀ p ∈ (w.chat.messages c).outstanding,
      p.1.device ≠ screen.client ∧ p.1.device ≠ screen'.client) :
    let entries := ChatSystem.appended w.chat c
    screen.vc.messageArr = (entries s).map Prod.snd ∧
    screen'.vc.messageArr = (entries t).map Prod.snd ∧ (entries s).Perm (entries t) ∧
    (entries s = entries t ↔ ∀ p ∈ entries s, ∀ q ∈ entries s,
      Before rank (initial currentUser users) as c s p.1 q.1 ↔
        Before rank (initial currentUser users) as c t p.1 q.1) := by
  intro entries
  have hperm : (entries s).Perm (entries t) := by
    refine (List.perm_ext_iff_of_nodup (hs.nodup h hs₁) (ht.nodup h ht₁)).mpr ?_
    rintro ⟨k, message⟩
    rw [hs.mem_appended h hr hs₁ hq, ht.mem_appended h hr ht₁ hq]
    simp only [visible_iff_of_answered hown]
  exact ⟨hs.messageArr h, ht.messageArr h, hperm,
    eq_iff_orders_agree hperm (hs.pairwise h hs₁ hq) (ht.pairwise h ht₁ hq)
      (fun p q hpq => hpq.asymm h hs₁.le) (fun p q hpq => hpq.asymm h ht₁.le)⟩

/-- The order of keys that no other order is put on: that of the strings. -/
def plainOrder : String ↪ String := Function.Embedding.refl String

def oneUser : World := initial (fun _ => some "u") fun _ => none

/-- Two clients open the community and send before they hear of each other's message. -/
def crossing : List Act :=
  [.chat (.didSelectItemAt 0 ⟨"Swift", "c"⟩), .chat (.didSelectItemAt 1 ⟨"Swift", "c"⟩),
    .chat (.viewDidAppear 0), .chat (.viewDidAppear 1), .loaded "c" 0 0, .loaded "c" 1 0,
    .chat (.edit 0 "a"), .chat (.edit 1 "b"), .chat (.sendMessageAction 0 "j"),
    .chat (.sendMessageAction 1 "k"), .childAdded "c" 0 "j", .childAdded "c" 1 "k",
    .accepted "c" "j", .accepted "c" "k", .arrived "c" 0, .arrived "c" 1, .childAdded "c" 0 "k",
    .childAdded "c" 1 "j"]

/-- The end of a run, as far as the community `c` is concerned. -/
def endOf (w : World) : List (Option String × List String) × Bool × List String :=
  (w.chat.screens.map fun x => (x.vc.community.map Community.communityID,
    x.vc.messageArr.map Message.messageBody), decide (Settled w "c"),
    (w.chat.messages "c").outstanding.map fun p => p.2.1)

theorem crossing_end : (exec (step plainOrder) oneUser crossing).map endOf =
    some ([(some "c", ["a", "b"]), (some "c", ["b", "a"])], true, []) := rfl

/-- What the run leaves on the two screens. -/
theorem crossing_screens : ∃ w screen screen', Run (step plainOrder) oneUser crossing w ∧
    Reads w "c" 0 screen ∧ Reads w "c" 1 screen' ∧ Settled w "c" ∧
    (w.chat.messages "c").outstanding = [] ∧
    screen.vc.messageArr.map Message.messageBody = ["a", "b"] ∧
    screen'.vc.messageArr.map Message.messageBody = ["b", "a"] := by
  obtain ⟨w, hw, heq⟩ := run_of_exec_map crossing_end
  simp only [endOf, Prod.mk.injEq, decide_eq_true_eq, List.map_eq_nil_iff] at heq
  obtain ⟨hscreens, hq, ho⟩ := heq
  obtain ⟨screen, rest, hcons, hscreen, hrest⟩ := List.map_eq_cons_iff.mp hscreens
  obtain ⟨screen', rest', rfl, hscreen', -⟩ := List.map_eq_cons_iff.mp hrest
  exact ⟨w, screen, screen', hw, ⟨by simp [hcons], congrArg Prod.fst hscreen⟩,
    ⟨by simp [hcons], congrArg Prod.fst hscreen'⟩, hq, ho, congrArg Prod.snd hscreen,
    congrArg Prod.snd hscreen'⟩

/-- Each of the two screens lists its own message first. -/
theorem crossing_messages_disagree : ¬ ∀ currentUser users as w c s t screen screen',
    Run (step plainOrder) (initial currentUser users) as w → (∀ c k, .rejected c k ∉ as) →
      Reads w c s screen → Reads w c t screen' → as.countP (appears s) = 1 →
        as.countP (appears t) = 1 → Settled w c → (w.chat.messages c).outstanding = [] →
          screen.vc.messageArr = screen'.vc.messageArr := by
  intro hall
  obtain ⟨w, screen, screen', hw, hs, ht, hq, ho, harr, harr'⟩ := crossing_screens
  have heq := hall _ _ crossing w "c" 0 1 screen screen' hw (by simp [crossing]) hs ht rfl rfl hq ho
  rw [heq, harr'] at harr
  exact absurd harr (by decide)

theorem crossing_same_messages : ∃ w screen screen',
    Run (step plainOrder) oneUser crossing w ∧ Reads w "c" 0 screen ∧ Reads w "c" 1 screen' ∧
      screen.vc.messageArr.Perm screen'.vc.messageArr := by
  obtain ⟨w, screen, screen', hw, hs, ht, hq, ho, -⟩ := crossing_screens
  obtain ⟨harr, harr', hperm, -⟩ := same_conversation_iff hw (by simp [crossing]) hs ht rfl rfl hq
    (Or.inr (by simp [ho]))
  exact ⟨w, screen, screen', hw, hs, ht, harr ▸ harr' ▸ hperm.map Prod.snd⟩

end LoopChat.ConversationSystem
