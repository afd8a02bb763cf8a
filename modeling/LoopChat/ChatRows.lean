import LoopChat.ChatIntegrity
import LoopChat.CommunityRows

/-!
# The rows of the chats

Every chat screen has a table over its `messageArr`. A row is drawn into a cell that the table
hands out, a new one or one that showed another row before; the bubble stands on the right when
the message is by the user who is signed in at that moment. `getMessage` reloads the table after
each message it appends, and nothing ever leaves the array.
-/
namespace LoopChat
open TransitionRuns RowViews FirebaseValues

inductive StackAlignment
  | fill
  | leading
  | trailing
  deriving DecidableEq, Repr

structure Color where
  red : ℚ
  green : ℚ
  blue : ℚ
  alpha : ℚ
  deriving DecidableEq

def Color.white : Color := ⟨1, 1, 1, 1⟩

/-- The source's `messageBubleStyle`. -/
inductive MessageBubleStyle
  | inComing
  | outComing
  deriving DecidableEq, Repr

structure MessageCell where
  userName : String
  messageBody : String
  isEditable : Bool
  alignment : StackAlignment
  backgroundColor : Color
  textColor : Color
  cornerRadius : ℕ
  deriving DecidableEq

namespace MessageCell

def setMessageData (cell : MessageCell) (message : Message) : MessageCell :=
  { cell with userName := message.senderName, messageBody := message.messageBody }

def bubleStyle (cell : MessageCell) : MessageBubleStyle → MessageCell
  | .inComing => { cell with
      alignment := .leading
      backgroundColor := ⟨0.3333333433, 0.3333333433, 0.3333333433, 1⟩
      textColor := .white }
  | .outComing => { cell with
      alignment := .trailing
      backgroundColor := ⟨0.197131604, 0.3969036937, 0.3120974302, 1⟩
      textColor := .white }

/-- What a cell shows after it was drawn for a message and a user; the uids are compared by code
points. -/
def showing (message : Message) (currentUser : Option String) : MessageCell :=
  let cell : MessageCell :=
    ⟨message.senderName, message.messageBody, false, .fill, .white, .white, 15⟩
  cell.bubleStyle (if some message.senderID = currentUser then .outComing else .inComing)

@[simp] theorem showing_userName (message : Message) (currentUser : Option String) :
    (showing message currentUser).userName = message.senderName := by
  unfold showing
  split_ifs <;> rfl

@[simp] theorem showing_messageBody (message : Message) (currentUser : Option String) :
    (showing message currentUser).messageBody = message.messageBody := by
  unfold showing
  split_ifs <;> rfl

theorem showing_trailing {message : Message} {currentUser : Option String} :
    (showing message currentUser).alignment = .trailing ↔
      currentUser = some message.senderID := by
  unfold showing
  split_ifs with h
  · simp [bubleStyle, h.symm]
  · simpa [bubleStyle] using fun hu => h hu.symm

end MessageCell

namespace ChatScreentVC

def numberOfRowsInSection (vc : ChatScreentVC) : ℕ := vc.messageArr.length

/-- The row drawn into the cell that the table handed out. A row that is not an index of the
array stops the process. Uids are ASCII, so comparing them by code points is what Swift's `==`
does. -/
def cellForRowAt (vc : ChatScreentVC) (currentUser : Option String) (row : ℕ)
    (dequeued : MessageCell) : Option MessageCell := do
  let message ← vc.messageArr[row]?
  let cell := dequeued.setMessageData message
  let cell := { cell with cornerRadius := 15, isEditable := false }
  return if some message.senderID = currentUser then cell.bubleStyle .outComing
    else cell.bubleStyle .inComing

/-- Nothing of what a cell showed before is left in it. -/
theorem cellForRowAt_eq_some {vc : ChatScreentVC} {currentUser : Option String} {row : ℕ}
    {dequeued cell : MessageCell} : vc.cellForRowAt currentUser row dequeued = some cell ↔
      ∃ message, vc.messageArr[row]? = some message ∧
        MessageCell.showing message currentUser = cell := by
  simp only [cellForRowAt, Option.pure_def, Option.bind_eq_bind, Option.bind_eq_some_iff,
    Option.some.injEq]
  refine exists_congr fun message => and_congr_right fun _ => ?_
  unfold MessageCell.showing
  split_ifs <;> rfl

end ChatScreentVC

namespace ChatRows

structure World where
  chat : ChatSystem.World
  /-- The table of each screen. -/
  tables : ℕ → View MessageCell
  /-- An index was out of range; the process has stopped. -/
  stopped : Bool

inductive Act
  | chat (act : ChatSystem.Act)
  /-- A row of a screen comes into sight and is drawn into the given cell. -/
  | cellForRowAt (screen row : ℕ) (dequeued : MessageCell)

def initial (currentUser : ℕ → Option String) (users : String → Option Fields) : World :=
  ⟨ChatSystem.initial currentUser users, fun _ => View.reload 0, false⟩

/-- The screen whose closure asks for a reload of its table. -/
def reloads (w : ChatSystem.World) : ChatSystem.Act → Option ℕ
  | .childAdded communityid o key => do
    let (cb, value, _) ← (w.messages communityid).deliver o key
    let screen ← w.screens[cb.owner]?
    if (screen.vc.childAdded value).2.any Call.isReloadData then some cb.owner else none
  | _ => none

/-- A reload asks the controller for the number of its rows. -/
def rows (w : ChatSystem.World) (s : ℕ) : ℕ :=
  match w.screens[s]? with
  | none => 0
  | some screen => screen.vc.numberOfRowsInSection

def World.setTable (w : World) (s : ℕ) (table : View MessageCell) : World :=
  { w with tables := Function.update w.tables s table }

def World.follow (w : World) (chat : ChatSystem.World) (reload : Option ℕ) : World :=
  match reload with
  | none => { w with chat := chat }
  | some s => { w with chat := chat }.setTable s (View.reload (rows chat s))

def step (w : World) (a : Act) : Option World :=
  if w.stopped then none else
  match a with
  | .chat act => do
    let chat ← ChatSystem.step w.chat act
    return w.follow chat (reloads w.chat act)
  | .cellForRowAt s row dequeued =>
    if row < (w.tables s).kept then do
      let screen ← w.chat.screens[s]?
      match screen.vc.cellForRowAt (w.chat.currentUser screen.client) row dequeued with
      | none => return { w with stopped := true }
      | some cell => return w.setTable s ((w.tables s).draw row cell)
    else none

open ChatSystem (step_effect step_screen)

variable {w w' : World} {a : Act} {as : List Act} {currentUser : ℕ → Option String}
  {users : String → Option Fields} {chat chat' : ChatSystem.World} {act : ChatSystem.Act}

/-- A screen is new and has no messages, or its array changes only with a reload. -/
theorem step_messageArr (h : ChatSystem.step chat act = some chat') {s : ℕ}
    {screen' : ChatSystem.Screen} (hs' : chat'.screens[s]? = some screen') :
    (chat.screens[s]? = none ∧ reloads chat act = none ∧ screen'.vc.messageArr = []) ∨
    ∃ screen, chat.screens[s]? = some screen ∧ screen'.client = screen.client ∧
      (reloads chat act = some s ∨
        reloads chat act ≠ some s ∧ screen'.vc.messageArr = screen.vc.messageArr) := by
  have hset : ∀ {i : ℕ} {x y : ChatSystem.Screen}, chat.screens[i]? = some x →
      (chat.screens.set i y)[s]? = some screen' → y.client = x.client →
      y.vc.messageArr = x.vc.messageArr → reloads chat act ≠ some s →
      ∃ screen, chat.screens[s]? = some screen ∧ screen'.client = screen.client ∧
        (reloads chat act = some s ∨
          reloads chat act ≠ some s ∧ screen'.vc.messageArr = screen.vc.messageArr) := by
    intro i x y hx hget hclient harray hno
    rcases getElem?_set_cases hx hget with ⟨rfl, rfl⟩ | ⟨-, hold⟩
    · exact ⟨x, hx, hclient, Or.inr ⟨hno, harray⟩⟩
    · exact ⟨screen', hold, rfl, Or.inr ⟨hno, rfl⟩⟩
  cases step_effect h with
  | signedIn | usersWritten | sentNothing | nameServed | sent | inserted =>
    exact Or.inr ⟨screen', hs', rfl, Or.inr ⟨by simp [reloads], rfl⟩⟩
  | opened client community =>
    rw [List.getElem?_append] at hs'
    split_ifs at hs' with hlt
    · exact Or.inr ⟨screen', hs', rfl, Or.inr ⟨by simp [reloads], rfl⟩⟩
    · obtain rfl := List.mem_singleton.mp (List.mem_of_getElem? hs')
      exact Or.inl ⟨List.getElem?_eq_none_iff.mpr (not_lt.mp hlt), rfl, rfl⟩
  | appeared hx _ =>
    rw [ChatSystem.appeared_screens] at hs'
    exact Or.inr ⟨screen', hs', rfl, Or.inr ⟨by simp [reloads], rfl⟩⟩
  | popped hx => exact Or.inr (hset hx hs' rfl rfl (by simp [reloads]))
  | edited _ hx => exact Or.inr (hset hx hs' rfl rfl (by simp [reloads]))
  | accepted _ hx => exact Or.inr (hset hx hs' rfl rfl (by simp [reloads]))
  | rejected _ hx => exact Or.inr (hset hx hs' rfl rfl (by simp [reloads]))
  | nameAnswered _ _ _ hx hvc =>
    obtain ⟨user, -, rfl⟩ := ChatScreentVC.userNameAnswer_eq_ok.mp hvc
    exact Or.inr (hset hx hs' rfl rfl (by simp [reloads]))
  | @delivered communityid o key cb value feed x hd hx =>
    right
    by_cases hr : reloads chat (.childAdded communityid o key) = some s
    · rcases getElem?_set_cases hx hs' with ⟨rfl, rfl⟩ | ⟨-, hold⟩
      · exact ⟨x, hx, rfl, Or.inl hr⟩
      · exact ⟨screen', hold, rfl, Or.inl hr⟩
    · rcases getElem?_set_cases hx hs' with ⟨rfl, rfl⟩ | ⟨-, hold⟩
      · refine ⟨x, hx, rfl, Or.inr ⟨hr, ?_⟩⟩
        cases hm : decodeMessage value with
        | none => simp [ChatScreentVC.childAdded, hm]
        | some message =>
          simp [reloads, hd, hx, ChatScreentVC.childAdded, hm, Call.isReloadData] at hr
      · exact ⟨screen', hold, rfl, Or.inr ⟨hr, rfl⟩⟩

theorem reloads_eq_some {s : ℕ} (h : reloads chat act = some s) :
    ∃ screen, chat.screens[s]? = some screen := by
  unfold reloads at h
  split at h
  · simp only [Option.bind_eq_bind, Option.bind_eq_some_iff] at h
    obtain ⟨⟨cb, value, feed⟩, -, screen, hs, heq⟩ := h
    split_ifs at heq
    obtain rfl := Option.some.inj heq
    exact ⟨screen, hs⟩
  · exact absurd h (by simp)

@[simp] theorem setTable_chat (w : World) (s : ℕ) (table : View MessageCell) :
    (w.setTable s table).chat = w.chat := rfl

@[simp] theorem setTable_stopped (w : World) (s : ℕ) (table : View MessageCell) :
    (w.setTable s table).stopped = w.stopped := rfl

@[simp] theorem setTable_tables (w : World) (s s' : ℕ) (table : View MessageCell) :
    (w.setTable s table).tables s' = if s' = s then table else w.tables s' := by
  simp [World.setTable, Function.update_apply]

@[simp] theorem follow_chat (w : World) (chat : ChatSystem.World) (reload : Option ℕ) :
    (w.follow chat reload).chat = chat := by
  cases reload <;> rfl

@[simp] theorem follow_stopped (w : World) (chat : ChatSystem.World) (reload : Option ℕ) :
    (w.follow chat reload).stopped = w.stopped := by
  cases reload <;> rfl

theorem follow_tables (w : World) (chat : ChatSystem.World) (reload : Option ℕ) (s : ℕ) :
    (w.follow chat reload).tables s =
      if reload = some s then View.reload (rows chat s) else w.tables s := by
  cases reload with
  | none => simp [World.follow]
  | some s' =>
    by_cases hs : s = s'
    · simp [World.follow, hs]
    · simp [World.follow, hs, Ne.symm hs]

theorem step_chat (h : step w (.chat act) = some w') :
    ∃ chat, ChatSystem.step w.chat act = some chat ∧
      w' = w.follow chat (reloads w.chat act) := by
  unfold step at h
  split_ifs at h
  obtain ⟨chat, hc, hw⟩ := Option.bind_eq_some_iff.mp h
  exact ⟨chat, hc, (Option.some.inj hw).symm⟩

/-- Drawing a row either fails on the index or changes one table. -/
theorem step_cellForRowAt {s row : ℕ} {dequeued : MessageCell}
    (h : step w (.cellForRowAt s row dequeued) = some w') :
    row < (w.tables s).kept ∧ ∃ screen, w.chat.screens[s]? = some screen ∧
      (screen.vc.messageArr[row]? = none ∧ w' = { w with stopped := true } ∨
        ∃ message, screen.vc.messageArr[row]? = some message ∧ w' = w.setTable s
          ((w.tables s).draw row (.showing message (w.chat.currentUser screen.client)))) := by
  unfold step at h
  split_ifs at h
  replace h : (if row < (w.tables s).kept then _ else none) = some w' := h
  split_ifs at h with hrow
  obtain ⟨screen, hs, h⟩ := Option.bind_eq_some_iff.mp h
  refine ⟨hrow, screen, hs, ?_⟩
  cases hm : screen.vc.messageArr[row]? with
  | none =>
    have hcell : screen.vc.cellForRowAt (w.chat.currentUser screen.client) row dequeued = none := by
      simp [ChatScreentVC.cellForRowAt, hm]
    rw [hcell] at h
    exact Or.inl ⟨rfl, (Option.some.inj h).symm⟩
  | some message =>
    rw [ChatScreentVC.cellForRowAt_eq_some.mpr ⟨message, hm, rfl⟩] at h
    exact Or.inr ⟨message, rfl, (Option.some.inj h).symm⟩

/-- The row was drawn on the run, for this message and the user signed in at that moment. -/
def Drawn (w₀ : World) (as : List Act) (s client row : ℕ) (message : Message)
    (cell : MessageCell) : Prop :=
  ∃ dequeued, Taken step w₀ as (.cellForRowAt s row dequeued) fun v =>
    cell = .showing message (v.chat.currentUser client)

/-- The rows of every table are the messages of its screen, and no index was out of range. -/
structure Sound (w₀ : World) (as : List Act) (w : World) : Prop where
  running : w.stopped = false
  rows : ∀ s screen, w.chat.screens[s]? = some screen →
    (w.tables s).Fits (Drawn w₀ as s screen.client) screen.vc.messageArr
  fresh : ∀ s, w.chat.screens[s]? = none → w.tables s = View.reload 0

theorem Drawn.append {w₀ : World} {s client row : ℕ} {message : Message} {cell : MessageCell}
    (h : Drawn w₀ as s client row message cell) (bs : List Act) :
    Drawn w₀ (as ++ bs) s client row message cell := by
  obtain ⟨dequeued, hd⟩ := h
  exact ⟨dequeued, hd.append bs⟩

theorem Sound.follow {w₀ : World} (h : Sound w₀ as w)
    (hs : ChatSystem.step w.chat act = some chat) :
    Sound w₀ (as ++ [.chat act]) (w.follow chat (reloads w.chat act)) := by
  refine ⟨by simpa using h.running, fun s screen' hs' => ?_, fun s hs' => ?_⟩
  · rw [follow_chat] at hs'
    rw [follow_tables]
    rcases step_messageArr hs hs' with ⟨hnew, hr, harray⟩ |
      ⟨screen, hold, hclient, hr | ⟨hr, harray⟩⟩
    · rw [if_neg (by simp [hr]), h.fresh s hnew, harray]
      exact View.reload_fits _ ([] : List Message)
    · have hrows : ChatRows.rows chat s = screen'.vc.messageArr.length := by
        simp [ChatRows.rows, hs', ChatScreentVC.numberOfRowsInSection]
      rw [if_pos hr, hrows]
      exact View.reload_fits _ _
    · rw [if_neg hr, harray, hclient]
      exact (h.rows s screen hold).mono fun _ _ _ hd => hd.append [_]
  · rw [follow_chat] at hs'
    have hold : w.chat.screens[s]? = none := by
      rw [← Option.not_isSome_iff_eq_none, Option.isSome_iff_exists]
      rintro ⟨screen, hscreen⟩
      obtain ⟨screen', hs'', -⟩ := step_screen hs hscreen
      exact Option.some_ne_none _ (hs''.symm.trans hs')
    have hr : reloads w.chat act ≠ some s := by
      intro hr
      obtain ⟨screen, hscreen⟩ := reloads_eq_some hr
      exact Option.some_ne_none _ (hscreen.symm.trans hold)
    rw [follow_tables, if_neg hr]
    exact h.fresh s hold

theorem sound_run (h : Run step (initial currentUser users) as w) :
    Sound (initial currentUser users) as w := by
  induction h with
  | nil => exact ⟨rfl, by simp [initial, ChatSystem.initial], fun _ _ => rfl⟩
  | @snoc as w a w' prior next ih =>
    cases a with
    | chat act =>
      obtain ⟨chat, hc, rfl⟩ := step_chat next
      exact ih.follow hc
    | cellForRowAt s row dequeued =>
      obtain ⟨hrow, screen, hs, ⟨hnone, -⟩ | ⟨message, hm, rfl⟩⟩ := step_cellForRowAt next
      · exact absurd (List.getElem?_eq_none_iff.mp hnone) (by
          rw [← (ih.rows s screen hs).1]
          exact not_le.mpr hrow)
      refine ⟨ih.running, fun s' screen' hs' => ?_, fun s' hs' => ?_⟩
      · have hkept := (ih.rows s' screen' hs').mono fun _ _ _ hd =>
          hd.append [.cellForRowAt s row dequeued]
        by_cases heq : s' = s
        · subst heq
          obtain rfl : screen' = screen := Option.some.inj (hs'.symm.trans hs)
          rw [setTable_tables, if_pos rfl]
          exact hkept.draw hm ⟨dequeued, Taken.last prior rfl⟩
        · rw [setTable_tables, if_neg heq]
          exact hkept
      · have hne : s' ≠ s := fun heq => Option.some_ne_none _ (hs.symm.trans (heq ▸ hs'))
        rw [setTable_tables, if_neg hne]
        exact ih.fresh s' hs'

/-- The part of a run that the screens see. -/
def Act.chatActs : Act → List ChatSystem.Act
  | .chat act => [act]
  | .cellForRowAt _ _ _ => []

theorem chat_run (h : Run step (initial currentUser users) as w) :
    Run ChatSystem.step (ChatSystem.initial currentUser users) (as.flatMap Act.chatActs)
      w.chat := by
  have hsim : ∃ chat, Run ChatSystem.step (ChatSystem.initial currentUser users)
      (as.flatMap Act.chatActs) chat ∧ w.chat = chat := by
    refine h.simulate (R := fun w chat => w.chat = chat) rfl ?_
    rintro w a w' _ rfl hs
    cases a with
    | chat act =>
      obtain ⟨chat, hc, rfl⟩ := step_chat hs
      exact ⟨chat, Run.nil.snoc hc, follow_chat _ _ _⟩
    | cellForRowAt s row dequeued =>
      refine ⟨w.chat, Run.nil, ?_⟩
      obtain ⟨-, _, -, ⟨-, rfl⟩ | ⟨_, -, rfl⟩⟩ := step_cellForRowAt hs <;> rfl
  obtain ⟨chat, hrun, rfl⟩ := hsim
  exact hrun

/-- No table ever has a row too many or too few, no row is out of range, and each row that is
drawn shows the message it is an index of, whatever its cell showed before. -/
theorem rows_show_messages (h : Run step (initial currentUser users) as w) :
    w.stopped = false ∧ ∀ s screen, w.chat.screens[s]? = some screen →
      (w.tables s).kept = screen.vc.messageArr.length ∧
      ∀ row cell, (w.tables s).drawn row = some cell →
        ∃ message dequeued, screen.vc.messageArr[row]? = some message ∧
          Taken step (initial currentUser users) as (.cellForRowAt s row dequeued) fun v =>
            cell = .showing message (v.chat.currentUser screen.client) := by
  have hsound := sound_run h
  refine ⟨hsound.running, fun s screen hs => ⟨(hsound.rows s screen hs).1, fun row cell hc => ?_⟩⟩
  obtain ⟨message, hm, dequeued, hd⟩ := (hsound.rows s screen hs).2 row cell hc
  exact ⟨message, dequeued, hm, hd⟩

/-- A message is sent and its row is drawn into a cell that showed another message. -/
def drawnOnce : List Act :=
  [.chat (.didSelectItemAt 0 ⟨"Swift", "c"⟩), .chat (.viewDidAppear 0), .chat (.edit 0 "hi"),
    .chat (.sendMessageAction 0 "k"), .chat (.childAdded "c" 0 "k"),
    .cellForRowAt 0 0 (.showing ⟨"n", "v", "old"⟩ none)]

theorem rows_show_messages_drawnOnce : ∃ w,
    Run step (initial (fun _ => some "u") fun _ => none) drawnOnce w ∧ w.stopped = false ∧
      (w.tables 0).kept = 1 := by
  have hexec : (exec step (initial (fun _ => some "u") fun _ => none) drawnOnce).map
      (fun w => (w.chat.screens[0]?).map fun screen => screen.vc.messageArr.length) =
      some (some 1) := rfl
  obtain ⟨w, hw, hone⟩ := run_of_exec_map hexec
  obtain ⟨screen, hs, hlength⟩ := Option.map_eq_some_iff.mp hone
  obtain ⟨hrunning, hrows⟩ := rows_show_messages hw
  exact ⟨w, hw, hrunning, (hrows 0 screen hs).1.trans hlength⟩

/-- Each bubble on any screen shows the name and the text of a message of the screen's community;
unless another app wrote it, they are those of the screen it was sent from, and it stands on the
right exactly when the user it was drawn for is the user who was signed in where it was sent. -/
theorem bubble_sides (h : Run step (initial currentUser users) as w) {s row : ℕ}
    {screen : ChatSystem.Screen} {community : Community} {cell : MessageCell}
    (hs : w.chat.screens[s]? = some screen) (hset : screen.vc.community = some community)
    (hc : (w.tables s).drawn row = some cell) :
    ∃ k message, (ChatSystem.appended w.chat community.communityID s)[row]? = some (k, message) ∧
      cell.userName = message.senderName ∧ cell.messageBody = message.messageBody ∧
      ((∀ value, .foreignChild community.communityID k value ∉ as.flatMap Act.chatActs) →
        ∃ reader author sender dequeued,
          Taken step (initial currentUser users) as (.cellForRowAt s row dequeued)
            (fun v => v.chat.currentUser screen.client = reader) ∧
          Taken ChatSystem.step (ChatSystem.initial currentUser users) (as.flatMap Act.chatActs)
            (.sendMessageAction sender k) (fun w₁ => ∃ from_, w₁.screens[sender]? = some from_ ∧
              from_.vc.community.map Community.communityID = some community.communityID ∧
              w₁.currentUser from_.client = some author ∧
              cell.userName = from_.vc.userName1 ∧
              cell.messageBody = from_.vc.messageTextField) ∧
          (cell.alignment = .trailing ↔ reader = some author)) := by
  obtain ⟨-, hrows⟩ := rows_show_messages h
  obtain ⟨message, dequeued, hm, hdrawn⟩ := (hrows s screen hs).2 row cell hc
  have hchat := chat_run h
  obtain ⟨harray, horigin⟩ := (ChatSystem.feed_integrity hchat).1 s screen community hs hset
  rw [harray, List.getElem?_map] at hm
  obtain ⟨⟨k, message'⟩, hentry, rfl⟩ := Option.map_eq_some_iff.mp hm
  obtain ⟨pre, post, v, rfl, hv, hshown⟩ := hdrawn
  refine ⟨k, message', hentry, by rw [hshown, MessageCell.showing_userName],
    by rw [hshown, MessageCell.showing_messageBody], fun hforeign => ?_⟩
  obtain ⟨sender, hsent⟩ := horigin k message' (List.mem_of_getElem? hentry) hforeign
  refine ⟨v.chat.currentUser screen.client, message'.senderID, sender, dequeued,
    ⟨pre, post, v, rfl, hv, rfl⟩, hsent.mono ?_, ?_⟩
  · rintro w₁ ⟨from_, hfrom, hid, hbody, hname, huser⟩
    refine ⟨from_, hfrom, hid, huser, ?_, ?_⟩
    · rw [hshown, MessageCell.showing_userName, hname]
    · rw [hshown, MessageCell.showing_messageBody, hbody]
  · rw [hshown]
    exact MessageCell.showing_trailing

theorem bubble_sides_drawnOnce : ∃ w k message cell,
    Run step (initial (fun _ => some "u") fun _ => none) drawnOnce w ∧
      (ChatSystem.appended w.chat "c" 0)[0]? = some (k, message) ∧
      (w.tables 0).drawn 0 = some cell ∧ cell.userName = message.senderName ∧
      cell.messageBody = message.messageBody := by
  have hexec : (exec step (initial (fun _ => some "u") fun _ => none) drawnOnce).map
      (fun w => ((w.chat.screens[0]?).map fun screen => screen.vc.community,
        ((w.tables 0).drawn 0).isSome)) = some (some (some ⟨"Swift", "c"⟩), true) := rfl
  obtain ⟨w, hw, hlast⟩ := run_of_exec_map hexec
  obtain ⟨hscreen, hdrawn⟩ := Prod.mk.inj hlast
  obtain ⟨screen, hs, hset⟩ := Option.map_eq_some_iff.mp hscreen
  obtain ⟨cell, hc⟩ := Option.isSome_iff_exists.mp hdrawn
  obtain ⟨k, message, hk, hname, hbody, -⟩ := bubble_sides hw hs hset hc
  exact ⟨w, k, message, cell, hw, hk, hc, hname, hbody⟩

end ChatRows

end LoopChat
