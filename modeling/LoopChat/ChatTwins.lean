import LoopChat.ConversationSystem
import LoopChat.FeedThinning

/-!
# Chat worlds that differ in some writes

`w'` is `w` without the writes that are not kept: the screens are the same but for what they
list. Whatever the clients do in `w` can be repeated in `w'`, except for the taps that made
those writes, which are left out there.
-/
namespace LoopChat.ChatSystem
open FirebaseValues ChildFeed

/-- A screen that lists `messages`. -/
def Screen.listing (screen : Screen) (messages : List Message) : Screen :=
  { screen with vc := { screen.vc with messageArr := messages } }

/-- A screen without what it lists. -/
def Screen.blank (screen : Screen) : Screen := screen.listing []

theorem Screen.blank_eq {screen screen' : Screen} (h : screen'.blank = screen.blank) :
    screen' = screen.listing screen'.vc.messageArr := by
  obtain ⟨client, ⟨arr, community, name, text⟩, popped⟩ := screen
  obtain ⟨client', ⟨arr', community', name', text'⟩, popped'⟩ := screen'
  simp only [blank, listing, Screen.mk.injEq, ChatScreentVC.mk.injEq, true_and] at h
  obtain ⟨rfl, ⟨rfl, rfl, rfl⟩, rfl⟩ := h
  rfl

@[simp] theorem Screen.blank_listing (screen : Screen) (messages : List Message) :
    (screen.listing messages).blank = screen.blank := rfl

/-- The community that screen `s` is open on. -/
def World.openOn (w : World) (s : ℕ) : Option String :=
  (w.screens[s]?).bind fun screen => screen.vc.community.map Community.communityID

/-- `w'` is `w` without the writes that are not kept. -/
structure Without (keep : String → String → Bool) (w w' : World) : Prop where
  currentUser : w'.currentUser = w.currentUser
  users : w'.users = w.users
  versions : w'.versions = w.versions
  nameRequests : w'.nameRequests = w.nameRequests
  screens : w'.screens.map Screen.blank = w.screens.map Screen.blank
  feeds : ∀ c, Feed.Thinned (keep c) (w.messages c) (w'.messages c)

variable {keep : String → String → Bool} {w w' u : World} {a : Act} {s : ℕ} {screen : Screen}
  {c : String}

theorem Without.same_screen (h : Without keep w w') (hs : w.screens[s]? = some screen) :
    ∃ messages, w'.screens[s]? = some (screen.listing messages) := by
  have hmap := congrArg (fun l => l[s]?) h.screens
  simp only [List.getElem?_map, hs, Option.map_some] at hmap
  obtain ⟨screen', hs', hblank⟩ := Option.map_eq_some_iff.mp hmap
  exact ⟨screen'.vc.messageArr, by rw [hs', ← Screen.blank_eq hblank]⟩

theorem Without.openOn (h : Without keep w w') (hopen : w.openOn s = some c) :
    w'.openOn s = some c := by
  obtain ⟨screen, hs, hset⟩ := Option.bind_eq_some_iff.mp hopen
  obtain ⟨messages, hs'⟩ := h.same_screen hs
  exact Option.bind_eq_some_iff.mpr ⟨_, hs', hset⟩

theorem Without.onScreen (h : Without keep w w') (hs : w.onScreen s = some screen) :
    ∃ messages, w'.onScreen s = some (screen.listing messages) := by
  obtain ⟨hs, hp⟩ := World.onScreen_eq_some.mp hs
  obtain ⟨messages, hs'⟩ := h.same_screen hs
  exact ⟨messages, World.onScreen_eq_some.mpr ⟨hs', hp⟩⟩

theorem Without.setScreen (h : Without keep w w') {x x' : Screen} (hx : x'.blank = x.blank) :
    Without keep (w.setScreen s x) (w'.setScreen s x') :=
  ⟨h.currentUser, h.users, h.versions, h.nameRequests,
    by simp [List.map_set, h.screens, hx], h.feeds⟩

theorem Without.setFeed (h : Without keep w w') {f f' : Feed String Value ℕ ℕ}
    (hf : Feed.Thinned (keep c) f f') : Without keep (w.setFeed c f) (w'.setFeed c f') := by
  refine ⟨h.currentUser, h.users, h.versions, h.nameRequests, h.screens, fun c' => ?_⟩
  rw [setFeed_messages, setFeed_messages]
  split_ifs with hc
  · exact hc ▸ hf
  · exact h.feeds c'

/-- A change of a feed in `w` that leaves no difference behind. -/
theorem Without.setFeed_left (h : Without keep w w') {f : Feed String Value ℕ ℕ}
    (hf : Feed.Thinned (keep c) f (w'.messages c)) : Without keep (w.setFeed c f) w' := by
  refine ⟨h.currentUser, h.users, h.versions, h.nameRequests, h.screens, fun c' => ?_⟩
  rw [setFeed_messages]
  split_ifs with hc
  · exact hc ▸ hf
  · exact h.feeds c'

/-- The array of a screen may change on one side only. -/
theorem Without.setScreen_left (h : Without keep w w') {x : Screen}
    (hs : w.screens[s]? = some screen) (hx : x.blank = screen.blank) :
    Without keep (w.setScreen s x) w' :=
  ⟨h.currentUser, h.users, h.versions, h.nameRequests,
    by rw [setScreen_screens, map_set_eq hs hx]; exact h.screens, h.feeds⟩

/-! ### The taps and appearances, by what they ask for -/

theorem viewDidAppear_eq_some : step w (.viewDidAppear s) = some u ↔ ∃ screen userid,
    w.onScreen s = some screen ∧ w.currentUser screen.client = some userid ∧
      u = w.appeared s screen userid := by
  constructor
  · intro h
    have hstep := h
    simp only [step, Option.bind_eq_bind, Option.bind_eq_some_iff] at h
    obtain ⟨screen, hs, -⟩ := h
    cases step_effect hstep with
    | @appeared _ screen' userid hs' hu =>
      obtain rfl := Option.some.inj ((World.onScreen_eq_some.mp hs).1.symm.trans hs')
      exact ⟨screen, userid, hs, hu, rfl⟩
  · rintro ⟨screen, userid, hs, hu, rfl⟩
    have hcalls := (@ChatScreentVC.viewDidAppear_eq_ok screen.vc _ _).mpr ⟨userid, hu, rfl⟩
    simp only [step, hs, hcalls, Option.bind_eq_bind, Option.bind_some, Except.toOption,
      World.appeared]
    cases hc : screen.vc.community <;> simp [ChatScreentVC.getMessage, hc, perform]

theorem sendMessageAction_eq_some {key : String} : step w (.sendMessageAction s key) = some u ↔
    ∃ screen, w.onScreen s = some screen ∧
      ((screen.vc.sendMessageAction (w.currentUser screen.client) = [] ∧ u = w) ∨
        ∃ c dataArray feed, screen.vc.sendMessageAction (w.currentUser screen.client) =
          [.setMessage c dataArray] ∧ w.openOn s = some c ∧
          (w.messages c).write ⟨screen.client, s⟩ key (.dict dataArray) = some feed ∧
          u = w.setFeed c feed) := by
  simp only [step, Option.bind_eq_bind, Option.bind_eq_some_iff]
  refine exists_congr fun screen => and_congr_right fun hs => ?_
  rcases screen.vc.sendMessageAction_cases (w.currentUser screen.client) with hn | ⟨call, hc⟩
  · simp [hn, eq_comm]
  · obtain ⟨userid, community, hu, hset, ht, rfl⟩ :=
      ChatScreentVC.sendMessageAction_eq_singleton.mp hc
    have hopen : w.openOn s = some community.communityID := by
      simp [World.openOn, (World.onScreen_eq_some.mp hs).1, hset]
    simp only [hc, List.foldlM_cons, List.foldlM_nil, perform]
    constructor
    · intro h
      obtain ⟨feed, hf, rfl⟩ : ∃ feed, (w.messages community.communityID).write
          ⟨screen.client, s⟩ key _ = some feed ∧ w.setFeed community.communityID feed = u := by
        simpa [Option.map_eq_some_iff] using h
      exact Or.inr ⟨_, _, feed, rfl, hopen, hf, rfl⟩
    · rintro (⟨habs, -⟩ | ⟨c, d, feed, heq, -, hf, rfl⟩)
      · cases habs
      · obtain ⟨rfl, rfl⟩ := by simpa using heq
        simp [hf]

/-! ### Repeating a step of a client -/

/-- The tap writes nothing, or a child that is kept. -/
def Keeps (keep : String → String → Bool) (w : World) (a : Act) : Prop :=
  ∀ s key c, a = .sendMessageAction s key → w.openOn s = some c → keep c key = true

/-- The new writes of the two steps are the same, but for those that are not kept. -/
def SameWrites (keep : String → String → Bool) (w u w' u' : World) : Prop :=
  ∀ c o, Queues.written (w'.messages c) (u'.messages c) o =
    (Queues.written (w.messages c) (u.messages c) o).filter (keep c)

theorem SameWrites.none {u' : World}
    (h : ∀ c, (u.messages c).outstanding = (w.messages c).outstanding)
    (h' : ∀ c, (u'.messages c).outstanding = (w'.messages c).outstanding) :
    SameWrites keep w u w' u' := by
  intro c o
  rw [Queues.written_eq_nil (h c), Queues.written_eq_nil (h' c), List.filter_nil]

/-- A child that is kept is written on both sides. -/
theorem SameWrites.write {cb : Callback ℕ ℕ} {key : String} {value : Value}
    {f f' : Feed String Value ℕ ℕ} (h : Without keep w w') (hk : keep c key = true)
    (hf : (w.messages c).write cb key value = some f)
    (hf' : (w'.messages c).write cb key value = some f') :
    SameWrites keep w (w.setFeed c f) w' (w'.setFeed c f') := by
  intro c' o
  rw [setFeed_messages, setFeed_messages]
  split_ifs with hc
  · subst hc
    rw [Queues.written_write hf, Queues.written_write hf', (h.feeds c').observers]
    split_ifs <;> simp [hk]
  · rw [Queues.written_eq_nil rfl, Queues.written_eq_nil rfl, List.filter_nil]

/-- A child that is not kept is written on the left only. -/
theorem SameWrites.write_dropped {cb : Callback ℕ ℕ} {key : String} {value : Value}
    {f : Feed String Value ℕ ℕ} (hk : keep c key = false)
    (hf : (w.messages c).write cb key value = some f) :
    SameWrites keep w (w.setFeed c f) w' w' := by
  intro c' o
  rw [setFeed_messages, Queues.written_eq_nil rfl]
  split_ifs with hc
  · subst hc
    rw [Queues.written_write hf]
    split_ifs <;> simp [hk]
  · rw [Queues.written_eq_nil rfl, List.filter_nil]

theorem Without.withRequests (h : Without keep w w') (requests : List NameRequest) :
    Without keep { w with nameRequests := requests } { w' with nameRequests := requests } :=
  ⟨h.currentUser, h.users, h.versions, rfl, h.screens, h.feeds⟩

theorem Without.same_appeared (h : Without keep w w') (messages : List Message)
    (userid : String) :
    Without keep (w.appeared s screen userid) (w'.appeared s (screen.listing messages) userid) := by
  have hasked := h.withRequests (w.nameRequests ++ [⟨s, userid, none, false⟩])
  unfold World.appeared
  rw [h.nameRequests]
  cases hc : screen.vc.community with
  | none =>
    simp only [Screen.listing, hc]
    exact hasked
  | some community =>
    simp only [Screen.listing, hc]
    exact hasked.setFeed ((h.feeds _).observe _)

theorem setFeed_outstanding {f : Feed String Value ℕ ℕ}
    (h : f.outstanding = (w.messages c).outstanding) (c' : String) :
    ((w.setFeed c f).messages c').outstanding = (w.messages c').outstanding := by
  rw [setFeed_messages]
  split_ifs with hc
  · rw [h, hc]
  · rfl

theorem appeared_outstanding (w : World) (s : ℕ) (screen : Screen) (userid c : String) :
    ((w.appeared s screen userid).messages c).outstanding = (w.messages c).outstanding := by
  rw [appeared_messages]
  split_ifs <;> rfl

@[simp] theorem setScreen_nameRequests (w : World) (s : ℕ) (screen : Screen) :
    (w.setScreen s screen).nameRequests = w.nameRequests := rfl

theorem Without.sent (h : Without keep w w') {key : String}
    (hk : ∀ c, w.openOn s = some c → keep c key = true)
    (hs : step w (.sendMessageAction s key) = some u) :
    ∃ u', step w' (.sendMessageAction s key) = some u' ∧ Without keep u u' ∧
      SameWrites keep w u w' u' := by
  obtain ⟨screen, hx, hcases⟩ := sendMessageAction_eq_some.mp hs
  obtain ⟨messages, hx'⟩ := h.onScreen hx
  have hcalls : (screen.listing messages).vc.sendMessageAction (w'.currentUser screen.client) =
      screen.vc.sendMessageAction (w.currentUser screen.client) := by rw [h.currentUser]; rfl
  rcases hcases with ⟨hnone, rfl⟩ | ⟨c, dataArray, feed, hcall, hopen, hf, rfl⟩
  · exact ⟨w', sendMessageAction_eq_some.mpr ⟨_, hx', Or.inl ⟨hcalls.trans hnone, rfl⟩⟩, h,
      SameWrites.none (fun _ => rfl) fun _ => rfl⟩
  · obtain ⟨feed', hf', hthin⟩ := (h.feeds c).write hf (hk c hopen)
    exact ⟨w'.setFeed c feed', sendMessageAction_eq_some.mpr ⟨_, hx', Or.inr
      ⟨c, dataArray, feed', hcalls.trans hcall, h.openOn hopen, hf', rfl⟩⟩, h.setFeed hthin,
      SameWrites.write h (hk c hopen) hf hf'⟩

/-- The completion of a name request does not look at what the screen lists. -/
theorem userNameAnswer_listing {userid : String} {snapshot : Option Snapshot} {vc : ChatScreentVC}
    (messages : List Message)
    (h : (screen.vc.userNameAnswer userid snapshot).toOption = some vc) :
    ((screen.listing messages).vc.userNameAnswer userid snapshot).toOption =
      some { vc with messageArr := messages } := by
  cases hv : screen.vc.userNameAnswer userid snapshot with
  | error trap => simp [hv, Except.toOption] at h
  | ok found =>
    obtain rfl : found = vc := by simpa [hv, Except.toOption] using h
    obtain ⟨user, hd, rfl⟩ := ChatScreentVC.userNameAnswer_eq_ok.mp hv
    have hv' := (@ChatScreentVC.userNameAnswer_eq_ok (screen.listing messages).vc _ _ _).mpr
      ⟨user, hd, rfl⟩
    rw [hv']
    rfl

theorem Without.nameAnswered (h : Without keep w w') {i : ℕ}
    (hs : step w (.nameAnswered i) = some u) :
    ∃ u', step w' (.nameAnswered i) = some u' ∧ Without keep u u' ∧ SameWrites keep w u w' u' := by
  simp only [step, Option.bind_eq_bind, Option.bind_eq_some_iff] at hs
  obtain ⟨request, hr, snapshot, hans, screen, hx, vc, hvc, hu⟩ := hs
  obtain rfl := Option.some.inj hu
  obtain ⟨messages, hx'⟩ := h.same_screen hx
  have hset : Without keep (w.setScreen request.screen { screen with vc := vc })
      (w'.setScreen request.screen { screen.listing messages with
        vc := { vc with messageArr := messages } }) := h.setScreen rfl
  refine ⟨(w'.setScreen request.screen { screen.listing messages with
      vc := { vc with messageArr := messages } }).setRequest i { request with handled := true },
    ?_, ?_, SameWrites.none (fun _ => rfl) fun _ => rfl⟩
  · simp [step, h.nameRequests, hr, hans, hx', userNameAnswer_listing messages hvc]
  · unfold World.setRequest
    rw [setScreen_nameRequests, setScreen_nameRequests, h.nameRequests]
    exact hset.withRequests _

/-- What a client does in `w`, other than making a write that is not kept, it can do in `w'`. -/
theorem Without.client (h : Without keep w w') (ha : ConversationSystem.ofClient a = true)
    (hk : Keeps keep w a) (hs : step w a = some u) :
    ∃ u', step w' a = some u' ∧ Without keep u u' ∧ SameWrites keep w u w' u' := by
  cases a with
  | signedIn client user =>
    obtain rfl := Option.some.inj hs
    exact ⟨_, rfl,
      ⟨by simp [h.currentUser], h.users, h.versions, h.nameRequests, h.screens, h.feeds⟩,
      SameWrites.none (fun _ => rfl) fun _ => rfl⟩
  | usersWritten uid document =>
    obtain rfl := Option.some.inj hs
    exact ⟨_, rfl, ⟨h.currentUser, by simp [World.writeUser, h.users],
        by simp [World.writeUser, h.versions], h.nameRequests, h.screens, h.feeds⟩,
      SameWrites.none (fun _ => rfl) fun _ => rfl⟩
  | didSelectItemAt client community =>
    obtain rfl := Option.some.inj hs
    exact ⟨_, rfl,
      ⟨h.currentUser, h.users, h.versions, h.nameRequests, by simp [h.screens], h.feeds⟩,
      SameWrites.none (fun _ => rfl) fun _ => rfl⟩
  | viewDidAppear s =>
    obtain ⟨screen, userid, hx, hu, rfl⟩ := viewDidAppear_eq_some.mp hs
    obtain ⟨messages, hs'⟩ := h.onScreen hx
    exact ⟨_, viewDidAppear_eq_some.mpr ⟨_, userid, hs', by rw [h.currentUser]; exact hu, rfl⟩,
      h.same_appeared messages userid,
      SameWrites.none (appeared_outstanding _ _ _ _) (appeared_outstanding _ _ _ _)⟩
  | pop s =>
    simp only [step, Option.bind_eq_bind, Option.bind_eq_some_iff] at hs
    obtain ⟨screen, hs, hu⟩ := hs
    obtain rfl := Option.some.inj hu
    obtain ⟨messages, hs'⟩ := h.onScreen hs
    exact ⟨w'.setScreen s { screen.listing messages with popped := true }, by simp [step, hs'],
      h.setScreen rfl, SameWrites.none (fun _ => rfl) fun _ => rfl⟩
  | edit s text =>
    simp only [step, Option.bind_eq_bind, Option.bind_eq_some_iff] at hs
    obtain ⟨screen, hs, hu⟩ := hs
    obtain rfl := Option.some.inj hu
    obtain ⟨messages, hs'⟩ := h.onScreen hs
    exact ⟨w'.setScreen s { screen.listing messages with
        vc := { (screen.listing messages).vc with messageTextField := text } }, by simp [step, hs'],
      h.setScreen rfl, SameWrites.none (fun _ => rfl) fun _ => rfl⟩
  | sendMessageAction s key => exact h.sent (fun c => hk s key c rfl) hs
  | foreignChild c key value =>
    simp only [step, Option.bind_eq_bind, Option.bind_eq_some_iff] at hs
    obtain ⟨feed, hf, hu⟩ := hs
    obtain rfl := Option.some.inj hu
    obtain ⟨feed', hf', hthin⟩ := (h.feeds c).insert hf
    obtain ⟨-, -, ho, -⟩ := Feed.insert_eq_some hf
    obtain ⟨-, -, ho', -⟩ := Feed.insert_eq_some hf'
    exact ⟨w'.setFeed c feed', by simp [step, hf'], h.setFeed hthin,
      SameWrites.none (setFeed_outstanding ho) (setFeed_outstanding ho')⟩
  | nameServed i own source =>
    simp only [step, Option.bind_eq_bind, Option.bind_eq_some_iff] at hs
    obtain ⟨request, hr, hu⟩ := hs
    obtain rfl := Option.some.inj hu
    refine ⟨w'.setRequest i { request with
        answer := some (w.nameAnswer request.userid own source) }, ?_, ?_,
      SameWrites.none (fun _ => rfl) fun _ => rfl⟩
    · simp [step, World.nameAnswer, h.nameRequests, hr, h.users, h.versions]
    · unfold World.setRequest
      rw [h.nameRequests]
      exact h.withRequests _
  | nameAnswered i => exact h.nameAnswered hs
  | accepted | rejected | childAdded => cases ha

/-- A tap whose write is not kept is left out. -/
theorem Without.client_dropped (h : Without keep w w') {key : String}
    (hs : step w (.sendMessageAction s key) = some u) (hopen : w.openOn s = some c)
    (hk : keep c key = false) : Without keep u w' ∧ SameWrites keep w u w' w' := by
  obtain ⟨screen, hx, ⟨-, rfl⟩ | ⟨c', dataArray, feed, -, hopen', hf, rfl⟩⟩ :=
    sendMessageAction_eq_some.mp hs
  · exact ⟨h, SameWrites.none (fun _ => rfl) fun _ => rfl⟩
  · obtain rfl : c = c' := Option.some.inj (hopen.symm.trans hopen')
    exact ⟨h.setFeed_left ((h.feeds c).write_dropped hf hk), SameWrites.write_dropped hk hf⟩

/-! ### Repeating what the database does -/

@[simp] theorem Screen.blank_sendMessageDone (screen : Screen) (messages : List Message)
    (error : Bool) : Screen.blank { screen.listing messages with
      vc := (screen.listing messages).vc.sendMessageDone error } =
    Screen.blank { screen with vc := screen.vc.sendMessageDone error } := by
  cases error <;> rfl

@[simp] theorem Screen.blank_childAdded (screen : Screen) (value : Value) :
    Screen.blank { screen with vc := (screen.vc.childAdded value).1 } = screen.blank := by
  unfold ChatScreentVC.childAdded
  cases decodeMessage value <;> rfl

theorem Without.accepted (h : Without keep w w') {i : ℕ} {cb : Callback ℕ ℕ} {key : String}
    {value : Value} (hi : (w.messages c).outstanding[i]? = some (cb, key, value))
    (hk : keep c key = true) (hs : step w (.accepted c i) = some u) : ∃ j u',
      (w'.messages c).outstanding.findIdx? (fun p => p.2.1 = key) = some j ∧
        step w' (.accepted c j) = some u' ∧ Without keep u u' := by
  cases step_effect hs with
  | @accepted _ _ cb' feed screen ha hx =>
    obtain ⟨p, hp, -⟩ := Feed.accept_eq_some ha
    obtain ⟨rfl, -⟩ := Prod.mk.inj (Option.some.inj (hp.symm.trans hi))
    obtain ⟨j, hfind, hj⟩ := (h.feeds c).place hi hk
    obtain ⟨feed', ha', hthin⟩ := (h.feeds c).accept hi hj ha
    obtain ⟨messages, hx'⟩ := h.same_screen hx
    exact ⟨j, (w'.setFeed c feed').setScreen cb'.owner { screen.listing messages with
      vc := (screen.listing messages).vc.sendMessageDone false }, hfind,
      by simp [step, ha', hx'], (h.setFeed hthin).setScreen (by simp)⟩

theorem Without.rejected (h : Without keep w w') {i : ℕ} {cb : Callback ℕ ℕ} {key : String}
    {value : Value} (hi : (w.messages c).outstanding[i]? = some (cb, key, value))
    (hk : keep c key = false) (hs : step w (.rejected c i) = some u) : Without keep u w' := by
  cases step_effect hs with
  | @rejected _ _ cb' feed screen hj hx =>
    obtain ⟨p, hp, -⟩ := Feed.reject_eq_some hj
    obtain ⟨rfl, -⟩ := Prod.mk.inj (Option.some.inj (hp.symm.trans hi))
    exact (h.setFeed_left ((h.feeds c).reject_dropped hi hj hk)).setScreen_left hx rfl

theorem Without.delivered (h : Without keep w w') {o : ℕ} {key : String}
    (hk : keep c key = true) (hs : step w (.childAdded c o key) = some u) :
    ∃ u', step w' (.childAdded c o key) = some u' ∧ Without keep u u' := by
  cases step_effect hs with
  | @delivered _ _ _ cb value feed screen hd hx =>
    obtain ⟨feed', hd', hthin⟩ := (h.feeds c).deliver hd hk
    obtain ⟨messages, hx'⟩ := h.same_screen hx
    exact ⟨(w'.setFeed c feed').setScreen cb.owner { screen.listing messages with
      vc := ((screen.listing messages).vc.childAdded value).1 }, by simp [step, hd', hx'],
      (h.setFeed hthin).setScreen (by simp)⟩

theorem Without.delivered_dropped (h : Without keep w w') {o : ℕ} {key : String}
    (hk : keep c key = false) (hs : step w (.childAdded c o key) = some u) :
    Without keep u w' := by
  cases step_effect hs with
  | @delivered _ _ _ cb value feed screen hd hx =>
    exact (h.setFeed_left ((h.feeds c).deliver_dropped hd hk)).setScreen_left hx (by simp)

end LoopChat.ChatSystem
