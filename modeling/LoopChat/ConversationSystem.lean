import LoopChat.ChatDelivery
import LoopChat.DeliveryQueues

/-!
# Chat screens over a database that keeps the order of its events

The chat system leaves open which due event comes next. Here each observer has a queue: the
load in key order, then the new children in the order in which the server stored them, with
the writes of the own device at once. `rank` is the order of the keys.
-/
namespace LoopChat.ConversationSystem
open FirebaseValues ChildFeed TransitionRuns

structure World where
  chat : ChatSystem.World
  queues : String → Queues String

inductive Act
  /-- A step of the chat system in which the database does not answer. -/
  | chat (a : ChatSystem.Act)
  /-- The load of an observer, with the first `stored` children. -/
  | loaded (communityid : String) (observer stored : ℕ)
  /-- A new child arrives at an observer. -/
  | arrived (communityid : String) (observer : ℕ)
  | childAdded (communityid : String) (observer : ℕ) (key : String)
  | accepted (communityid key : String)
  | rejected (communityid key : String)

def initial (currentUser : ℕ → Option String) (users : String → Option Fields) : World :=
  ⟨ChatSystem.initial currentUser users, fun _ => Queues.empty⟩

/-- The answers and the events of the database have labels of their own here. -/
def ofClient : ChatSystem.Act → Bool
  | .accepted .. | .rejected .. | .childAdded .. => false
  | _ => true

/-- The queues after a step of the clients. -/
def World.follow (w : World) (chat : ChatSystem.World) : World :=
  ⟨chat, fun c => (w.queues c).follow (w.chat.messages c) (chat.messages c)⟩

def World.setQueues (w : World) (communityid : String) (q : Queues String) : World :=
  { w with queues := Function.update w.queues communityid q }

/-- The place of a write among the unanswered ones. -/
def World.place (w : World) (communityid key : String) : Option ℕ :=
  (w.chat.messages communityid).outstanding.findIdx? fun p => p.2.1 = key

/-- No event of the child is left in a queue. -/
def World.HandedOut (w : World) (communityid key : String) : Prop :=
  ∀ o < (w.chat.messages communityid).observers.length, key ∉ (w.queues communityid).due o

instance (w : World) (communityid key : String) : Decidable (w.HandedOut communityid key) :=
  inferInstanceAs (Decidable (∀ o < _, _))

variable {ρ : Type*} [LinearOrder ρ]

/-- The events of a write are raised at once, so they are out before the writing device is told
of a refusal. -/
def step (rank : String ↪ ρ) (w : World) : Act → Option World
  | .chat a => if ofClient a then (ChatSystem.step w.chat a).map w.follow else none
  | .loaded c o n => ((w.queues c).load rank (w.chat.messages c) o n).map (w.setQueues c)
  | .arrived c o => ((w.queues c).arrive (w.chat.messages c) o).map (w.setQueues c)
  | .childAdded c o key => do
    let q ← (w.queues c).hand o key
    let chat ← ChatSystem.step w.chat (.childAdded c o key)
    return { w.setQueues c q with chat := chat }
  | .accepted c key => do
    let i ← w.place c key
    let chat ← ChatSystem.step w.chat (.accepted c i)
    return { w with chat := chat }
  | .rejected c key => do
    let i ← w.place c key
    let chat ← ChatSystem.step w.chat (.rejected c i)
    if w.HandedOut c key then return { w with chat := chat } else none

/-- What each step does, with everything that was checked on the way. -/
inductive Effect (rank : String ↪ ρ) (w : World) : Act → World → Prop
  | chat {a : ChatSystem.Act} {chat : ChatSystem.World} (client : ofClient a = true)
      (next : ChatSystem.step w.chat a = some chat) : Effect rank w (.chat a) (w.follow chat)
  | loaded {c : String} {o n : ℕ} {q : Queues String}
      (load : (w.queues c).load rank (w.chat.messages c) o n = some q) :
      Effect rank w (.loaded c o n) (w.setQueues c q)
  | arrived {c : String} {o : ℕ} {q : Queues String}
      (arrive : (w.queues c).arrive (w.chat.messages c) o = some q) :
      Effect rank w (.arrived c o) (w.setQueues c q)
  | handed {c : String} {o : ℕ} {key : String} {q : Queues String} {chat : ChatSystem.World}
      (hand : (w.queues c).hand o key = some q)
      (next : ChatSystem.step w.chat (.childAdded c o key) = some chat) :
      Effect rank w (.childAdded c o key) { w.setQueues c q with chat := chat }
  | accepted {c key : String} {i : ℕ} {chat : ChatSystem.World} (place : w.place c key = some i)
      (next : ChatSystem.step w.chat (.accepted c i) = some chat) :
      Effect rank w (.accepted c key) { w with chat := chat }
  | rejected {c key : String} {i : ℕ} {chat : ChatSystem.World} (place : w.place c key = some i)
      (next : ChatSystem.step w.chat (.rejected c i) = some chat)
      (handed : w.HandedOut c key) : Effect rank w (.rejected c key) { w with chat := chat }

variable {rank : String ↪ ρ} {w w' : World} {a : Act} {as : List Act} {c : String}

theorem step_effect (h : step rank w a = some w') : Effect rank w a w' := by
  cases a with
  | chat a =>
    simp only [step] at h
    split_ifs at h with ha
    obtain ⟨chat, hc, rfl⟩ := Option.map_eq_some_iff.mp h
    exact .chat ha hc
  | loaded c o n =>
    obtain ⟨q, hq, rfl⟩ := Option.map_eq_some_iff.mp h
    exact .loaded hq
  | arrived c o =>
    obtain ⟨q, hq, rfl⟩ := Option.map_eq_some_iff.mp h
    exact .arrived hq
  | childAdded c o key =>
    simp only [step, Option.bind_eq_bind, Option.bind_eq_some_iff] at h
    obtain ⟨q, hq, chat, hc, hw⟩ := h
    obtain rfl := Option.some.inj hw
    exact .handed hq hc
  | accepted c key =>
    simp only [step, Option.bind_eq_bind, Option.bind_eq_some_iff] at h
    obtain ⟨i, hi, chat, hc, hw⟩ := h
    obtain rfl := Option.some.inj hw
    exact .accepted hi hc
  | rejected c key =>
    simp only [step, Option.bind_eq_bind, Option.bind_eq_some_iff] at h
    obtain ⟨i, hi, chat, hc, hw⟩ := h
    split_ifs at hw with hh
    obtain rfl := Option.some.inj hw
    exact .rejected hi hc hh

/-- Each step is a step of the chat system, or leaves it alone. -/
theorem step_chat (h : step rank w a = some w') :
    (w'.chat = w.chat ∧ ∀ s, a ≠ .chat (.viewDidAppear s)) ∨
    ∃ b, ChatSystem.step w.chat b = some w'.chat ∧
      (∀ s, a = .chat (.viewDidAppear s) ↔ b = .viewDidAppear s) ∧
      (∀ c i, b = .rejected c i → ∃ key, a = .rejected c key) := by
  cases step_effect h with
  | @chat a chat client next =>
    refine Or.inr ⟨a, next, fun s => by rw [Act.chat.injEq], fun c i hi => ?_⟩
    simp [hi, ofClient] at client
  | loaded => exact Or.inl ⟨rfl, by simp⟩
  | arrived => exact Or.inl ⟨rfl, by simp⟩
  | handed hand next => exact Or.inr ⟨_, next, by simp, by simp⟩
  | accepted place next => exact Or.inr ⟨_, next, by simp, by simp⟩
  | @rejected c key i chat place next handed =>
    refine Or.inr ⟨_, next, by simp, fun c' i' he => ?_⟩
    cases he
    exact ⟨key, rfl⟩

/-- Every run is a run of the chat system. -/
theorem run_chat {currentUser : ℕ → Option String} {users : String → Option Fields}
    (h : Run (step rank) (initial currentUser users) as w) :
    ∃ bs, Run ChatSystem.step (ChatSystem.initial currentUser users) bs w.chat ∧
      (∀ s, .chat (.viewDidAppear s) ∈ as → .viewDidAppear s ∈ bs) ∧
      (∀ c i, .rejected c i ∈ bs → ∃ key, .rejected c key ∈ as) := by
  induction h with
  | nil => exact ⟨[], Run.nil, by simp, by simp⟩
  | @snoc as s a t prior next ih =>
    obtain ⟨bs, hrun, happ, hrej⟩ := ih
    rcases step_chat next with ⟨heq, hno⟩ | ⟨b, hb, happ', hrej'⟩
    · refine ⟨bs, heq ▸ hrun, fun s hs => happ s ?_, fun c i hi => ?_⟩
      · simpa [(hno s).symm] using hs
      · obtain ⟨key, hkey⟩ := hrej c i hi
        exact ⟨key, by simp [hkey]⟩
    · refine ⟨bs ++ [b], hrun.snoc hb, fun s hs => ?_, fun c i hi => ?_⟩
      · rcases List.mem_append.mp hs with hs | hs
        · exact List.mem_append_left _ (happ s hs)
        · simp [(happ' s).mp (List.mem_singleton.mp hs).symm]
      · rcases List.mem_append.mp hi with hi | hi
        · obtain ⟨key, hkey⟩ := hrej c i hi
          exact ⟨key, by simp [hkey]⟩
        · obtain ⟨key, hkey⟩ := hrej' c i (List.mem_singleton.mp hi).symm
          exact ⟨key, by simp [hkey]⟩

theorem place_eq_some {i : ℕ} {key : String} (h : w.place c key = some i) :
    ∃ cb v, (w.chat.messages c).outstanding[i]? = some (cb, key, v) := by
  obtain ⟨hlt, hkey, -⟩ := List.findIdx?_eq_some_iff_getElem.mp h
  rcases hp : (w.chat.messages c).outstanding[i] with ⟨cb, k, v⟩
  obtain rfl : k = key := by simpa [hp] using hkey
  exact ⟨cb, v, by rw [List.getElem?_eq_getElem hlt, hp]⟩

/-! ### The order in which children reach an observer -/

/-- A step performs one operation at most on each feed. -/
theorem step_feed {w w' : ChatSystem.World} {a : ChatSystem.Act}
    (h : ChatSystem.step w a = some w') (c : String) :
    Feed.Next (w.messages c) (w'.messages c) := by
  have hset : ∀ {c' : String} {feed : Feed String Value ℕ ℕ}, Feed.Next (w.messages c') feed →
      Feed.Next (w.messages c) ((w.setFeed c' feed).messages c) := by
    intro c' feed hf
    rw [ChatSystem.setFeed_messages]
    split_ifs with hc
    · exact hc ▸ hf
    · exact .same
  cases ChatSystem.step_effect h with
  | signedIn | usersWritten | opened | sentNothing | nameServed | popped | edited
  | nameAnswered => exact .same
  | appeared =>
    rw [ChatSystem.appeared_messages]
    split_ifs
    · exact .observe _
    · exact .same
  | sent _ _ _ _ hw => exact hset (.write hw)
  | inserted hi => exact hset (.insert hi)
  | accepted ha _ => exact hset (.accept ha)
  | rejected hj _ => exact hset (.reject hj)
  | delivered hd _ => exact hset (.deliver hd)

/-- A client raises no event by itself, and writes one child at most. -/
theorem client_feed {w w' : ChatSystem.World} {a : ChatSystem.Act}
    (h : ChatSystem.step w a = some w') (ha : ofClient a = true) (c : String) :
    (w'.messages c).raised = (w.messages c).raised ∧
      ((w'.messages c).outstanding = (w.messages c).outstanding ∨
        ∃ cb k v, (w.messages c).write cb k v = some (w'.messages c)) := by
  cases ChatSystem.step_effect h with
  | signedIn | usersWritten | opened | sentNothing | nameServed | popped | edited
  | nameAnswered => exact ⟨rfl, Or.inl rfl⟩
  | appeared =>
    rw [ChatSystem.appeared_messages]
    split_ifs <;> exact ⟨rfl, Or.inl rfl⟩
  | @sent s screen userid community key feed _ _ _ _ hw =>
    rw [ChatSystem.setFeed_messages]
    split_ifs with hc
    · subst hc
      obtain ⟨-, -, -, -, hr, -⟩ := Feed.write_eq_some hw
      exact ⟨hr, Or.inr ⟨_, _, _, hw⟩⟩
    · exact ⟨rfl, Or.inl rfl⟩
  | inserted hi =>
    rw [ChatSystem.setFeed_messages]
    split_ifs with hc
    · subst hc
      obtain ⟨-, -, ho, -, hr, -⟩ := Feed.insert_eq_some hi
      exact ⟨hr, Or.inl ho⟩
    · exact ⟨rfl, Or.inl rfl⟩
  | accepted | rejected | delivered => cases ha

theorem answer_raised {w w' : ChatSystem.World} {i : ℕ}
    (h : ChatSystem.step w (.accepted c i) = some w' ∨ ChatSystem.step w (.rejected c i) = some w')
    (c' : String) : (w'.messages c').raised = (w.messages c').raised := by
  rcases h with h | h
  · cases ChatSystem.step_effect h with
    | accepted ha _ =>
      obtain ⟨_, -, -, -, -, hr, -⟩ := Feed.accept_eq_some ha
      exact ChatSystem.setFeed_raised hr c'
  · cases ChatSystem.step_effect h with
    | rejected hj _ =>
      obtain ⟨_, -, -, -, -, hr, -⟩ := Feed.reject_eq_some hj
      exact ChatSystem.setFeed_raised hr c'

/-- Each step lets further children reach an observer, in their order. -/
theorem step_advance (hs : ∀ c, (w.queues c).Sound (w.chat.messages c))
    (h : step rank w a = some w') (c : String) :
    Queues.Advance rank (w.queues c) (w.chat.messages c) (w'.queues c) (w'.chat.messages c) := by
  have hsame : ∀ {q q' : Queues String} {f g : Feed String Value ℕ ℕ}, q' = q →
      g.raised = f.raised → Queues.Advance rank q f q' g := by
    rintro q q' f g rfl hr
    exact Queues.advance_of_same (by simp [funext_iff, Queues.reached, Feed.told, hr])
  have hset : ∀ {c' : String} {q : Queues String}, Queues.Advance rank (w.queues c')
      (w.chat.messages c') q (w.chat.messages c') → Queues.Advance rank (w.queues c)
      (w.chat.messages c) ((w.setQueues c' q).queues c) (w.chat.messages c) := by
    intro c' q hq
    by_cases hc : c = c'
    · subst hc
      simpa [World.setQueues] using hq
    · exact hsame (by simp [World.setQueues, hc]) rfl
  cases step_effect h with
  | @chat a chat client next =>
    obtain ⟨hr, ho | ⟨cb, k, v, hw⟩⟩ := client_feed next client c
    · exact Queues.advance_same_outstanding (hs c) hr ho
    · exact Queues.advance_write (hs c) hw
  | loaded load => exact hset (Queues.advance_load load)
  | arrived arrive => exact hset (Queues.advance_arrive arrive)
  | @handed c' o key q chat hand next =>
    cases ChatSystem.step_effect next with
    | @delivered _ _ _ cb value feed screen hd _ =>
      by_cases hc : c = c'
      · subst hc
        simpa [World.setQueues] using Queues.advance_hand hand hd
      · exact hsame (by simp [World.setQueues, hc]) (by simp [hc])
  | accepted place next => exact hsame rfl (answer_raised (Or.inl next) c)
  | rejected place next => exact hsame rfl (answer_raised (Or.inr next) c)

/-- What has reached an observer was issued before. -/
def Sound (w : World) : Prop := ∀ c, (w.queues c).Sound (w.chat.messages c)

theorem step_sound (hs : Sound w) (h : step rank w a = some w') : Sound w' := by
  intro c
  rcases step_chat h with ⟨heq, -⟩ | ⟨b, hb, -⟩
  · refine (hs c).advance (step_advance hs h c) ?_ ?_ <;> simp [heq]
  · refine (hs c).advance (step_advance hs h c) (step_feed hb c).issued ?_
    rcases ChatSystem.step_observers hb c with ho | ⟨_, _, -, -, -, ho⟩
    · rw [ho]
    · simp [ho]

theorem run_sound {currentUser : ℕ → Option String} {users : String → Option Fields}
    (h : Run (step rank) (initial currentUser users) as w) : Sound w := by
  refine h.invariant (fun c => ⟨?_, ?_⟩) fun hI hs => step_sound hI hs
  · simp [initial, ChatSystem.initial, Queues.empty, Queues.reached, Feed.told, Feed.empty]
  · simp [initial, ChatSystem.initial, Queues.empty, Queues.reached, Feed.told, Feed.empty]

end LoopChat.ConversationSystem
