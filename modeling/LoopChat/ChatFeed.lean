import LoopChat.ChatSystem

/-!
# What a chat screen shows

`messageArr` is the decoded image of the events raised to the screen's observers, in the
order in which they were raised. From this one invariant follow the correctness of every
entry, the completeness of the list once nothing is undelivered, and exactly when a child
is shown twice.
-/
namespace LoopChat.ChatSystem
open FirebaseValues ChildFeed TransitionRuns

/-- The entries appended to the array of screen `s`, with the child each one came from. -/
def appended (w : World) (communityid : String) (s : ℕ) : List (String × Message) :=
  ((w.messages communityid).eventsOf s).filterMap fun e =>
    (decodeMessage e.value).map fun message => (e.key, message)

/-- The part of a screen that its observers and its array depend on. -/
def Screen.view (screen : Screen) : ℕ × Option Community × List Message :=
  (screen.client, screen.vc.community, screen.vc.messageArr)

@[simp] theorem setFeed_messages (w : World) (c c' : String) (feed : Feed String Value ℕ ℕ) :
    (w.setFeed c feed).messages c' = if c' = c then feed else w.messages c' := by
  simp [World.setFeed, Function.update_apply]

@[simp] theorem setFeed_screens (w : World) (c : String) (feed : Feed String Value ℕ ℕ) :
    (w.setFeed c feed).screens = w.screens := rfl

@[simp] theorem setScreen_messages (w : World) (s : ℕ) (screen : Screen) :
    (w.setScreen s screen).messages = w.messages := rfl

@[simp] theorem setScreen_screens (w : World) (s : ℕ) (screen : Screen) :
    (w.setScreen s screen).screens = w.screens.set s screen := rfl

@[simp] theorem setRequest_screens (w : World) (i : ℕ) (request : NameRequest) :
    (w.setRequest i request).screens = w.screens := rfl

@[simp] theorem appeared_screens (w : World) (s : ℕ) (screen : Screen) (userid : String) :
    (w.appeared s screen userid).screens = w.screens := by
  unfold World.appeared
  cases screen.vc.community <;> rfl

/-- An appearance registers one observer, on the screen's own community. -/
theorem appeared_messages (w : World) (s : ℕ) (screen : Screen) (userid c : String) :
    (w.appeared s screen userid).messages c =
      if screen.vc.community.map Community.communityID = some c
      then (w.messages c).observe ⟨screen.client, s⟩ else w.messages c := by
  unfold World.appeared
  cases screen.vc.community with
  | none => simp
  | some community =>
    by_cases hc : c = community.communityID
    · subst hc
      simp
    · simp [hc, Ne.symm hc]

theorem appended_congr {w w' : World} {c : String} {s : ℕ}
    (hr : (w'.messages c).raised = (w.messages c).raised)
    (ho : (w'.messages c).observers = (w.messages c).observers) :
    appended w' c s = appended w c s := by
  rw [appended, appended, Feed.eventsOf_congr hr ho]

theorem mem_appended {w : World} {c : String} {s : ℕ} {k : String} {message : Message} :
    (k, message) ∈ appended w c s ↔ ∃ e ∈ (w.messages c).eventsOf s,
      e.key = k ∧ decodeMessage e.value = some message := by
  simp only [appended, List.mem_filterMap, Option.map_eq_some_iff, Prod.mk.injEq]
  constructor
  · rintro ⟨e, he, m, hm, rfl, rfl⟩
    exact ⟨e, he, rfl, hm⟩
  · rintro ⟨e, he, rfl, hm⟩
    exact ⟨e, he, message, hm, rfl, rfl⟩

/-- Every screen is open on a community, observers belong to screens of their community, and
each array is the decoded image of the events of its screen. -/
structure Valid (w : World) : Prop where
  community : ∀ (s : ℕ) (screen : Screen), w.screens[s]? = some screen →
    ∃ community, screen.vc.community = some community
  observer : ∀ c, ∀ cb ∈ (w.messages c).observers, ∃ screen community,
    w.screens[cb.owner]? = some screen ∧ screen.client = cb.device ∧
      screen.vc.community = some community ∧ community.communityID = c
  array : ∀ s screen community, w.screens[s]? = some screen →
    screen.vc.community = some community →
      screen.vc.messageArr = (appended w community.communityID s).map Prod.snd

theorem initial_valid (currentUser : ℕ → Option String) (users : String → Option Fields) :
    Valid (initial currentUser users) := by
  constructor
  · simp [initial]
  · simp [initial, Feed.empty]
  · simp [initial]

theorem getElem?_of_view {l l' : List Screen} (h : l'.map Screen.view = l.map Screen.view)
    {s : ℕ} {screen' : Screen} (hs : l'[s]? = some screen') :
    ∃ screen, l[s]? = some screen ∧ screen.view = screen'.view := by
  have hv := congrArg (fun m => m[s]?) h
  simp only [List.getElem?_map, hs, Option.map_some] at hv
  exact Option.map_eq_some_iff.mp hv.symm

/-- Replacing an element by one with the same image. -/
theorem map_set_eq {α β : Type*} {f : α → β} {l : List α} {i : ℕ} {x x' : α}
    (hi : l[i]? = some x) (hf : f x' = f x) : (l.set i x').map f = l.map f := by
  obtain ⟨hlt, rfl⟩ := List.getElem?_eq_some_iff.mp hi
  rw [List.map_set, hf, ← List.getElem_map f (h := by simpa using hlt), List.set_getElem_self]

/-- A step that leaves the events, the observers and the screens' views alone. -/
theorem Valid.congr {w w' : World} (h : Valid w)
    (hr : ∀ c, (w'.messages c).raised = (w.messages c).raised)
    (ho : ∀ c, (w'.messages c).observers = (w.messages c).observers)
    (hv : w'.screens.map Screen.view = w.screens.map Screen.view) : Valid w' := by
  constructor
  · intro s screen' hs'
    obtain ⟨screen, hs, hview⟩ := getElem?_of_view hv hs'
    simp only [Screen.view, Prod.mk.injEq] at hview
    obtain ⟨community, hset⟩ := h.community s screen hs
    exact ⟨community, hview.2.1 ▸ hset⟩
  · intro c cb hcb
    rw [ho c] at hcb
    obtain ⟨screen, community, hs, hd, hset, hid⟩ := h.observer c cb hcb
    obtain ⟨screen', hs', hview⟩ := getElem?_of_view hv.symm hs
    simp only [Screen.view, Prod.mk.injEq] at hview
    exact ⟨screen', community, hs', hview.1.trans hd, hview.2.1.trans hset, hid⟩
  · intro s screen' community hs' hset'
    obtain ⟨screen, hs, hview⟩ := getElem?_of_view hv hs'
    simp only [Screen.view, Prod.mk.injEq] at hview
    rw [appended_congr (hr _) (ho _), ← hview.2.2]
    exact h.array s screen community hs (hview.2.1.trans hset')

/-- A child at any location after a change at one of them. -/
theorem known_setFeed {w : World} {c c' : String} {feed : Feed String Value ℕ ℕ}
    {p : String × Value} (hp : p ∈ ((w.setFeed c feed).messages c').known) :
    (c' = c ∧ p ∈ feed.known) ∨ p ∈ (w.messages c').known := by
  rw [setFeed_messages] at hp
  split_ifs at hp with hc
  · exact Or.inl ⟨hc, hp⟩
  · exact Or.inr hp

theorem setFeed_raised {w : World} {c : String} {feed : Feed String Value ℕ ℕ}
    (hr : feed.raised = (w.messages c).raised) (c' : String) :
    ((w.setFeed c feed).messages c').raised = (w.messages c').raised := by
  rw [setFeed_messages]
  split_ifs with hc
  · rw [hr, hc]
  · rfl

theorem setFeed_observers {w : World} {c : String} {feed : Feed String Value ℕ ℕ}
    (ho : feed.observers = (w.messages c).observers) (c' : String) :
    ((w.setFeed c feed).messages c').observers = (w.messages c').observers := by
  rw [setFeed_messages]
  split_ifs with hc
  · rw [ho, hc]
  · rfl

/-- A new screen has no observers yet, so it starts with an empty array. -/
theorem Valid.opened {w : World} (h : Valid w) (client : ℕ) (community : Community) :
    Valid { w with screens := w.screens ++
      [⟨client, { community := some community }, false⟩] } := by
  constructor
  · intro s screen hs
    rw [List.getElem?_append] at hs
    split_ifs at hs with hlt
    · exact h.community s screen hs
    · obtain rfl := List.mem_singleton.mp (List.mem_of_getElem? hs)
      exact ⟨community, rfl⟩
  · intro c cb hcb
    obtain ⟨screen, community', hs, hrest⟩ := h.observer c cb hcb
    have hlt := (List.getElem?_eq_some_iff.mp hs).1
    exact ⟨screen, community', by rw [List.getElem?_append_left hlt]; exact hs, hrest⟩
  · intro s screen community' hs hset
    rw [List.getElem?_append] at hs
    split_ifs at hs with hlt
    · exact h.array s screen community' hs hset
    · obtain rfl := List.mem_singleton.mp (List.mem_of_getElem? hs)
      have hnone : (w.messages community'.communityID).eventsOf s = [] := by
        rw [List.eq_nil_iff_forall_not_mem]
        intro e he
        obtain ⟨-, cb, hcb, rfl⟩ := Feed.mem_eventsOf.mp he
        obtain ⟨x, -, hx, -⟩ := h.observer _ cb (List.mem_of_getElem? hcb)
        exact hlt (List.getElem?_eq_some_iff.mp hx).1
      simp [appended, hnone]

theorem Valid.appeared {w : World} (h : Valid w) {s : ℕ} {screen : Screen}
    (hs : w.screens[s]? = some screen) (userid : String) :
    Valid (w.appeared s screen userid) := by
  constructor
  · rw [appeared_screens]
    exact h.community
  · intro c cb hcb
    rw [appeared_messages] at hcb
    rw [appeared_screens]
    split_ifs at hcb with hc
    · obtain ⟨community, hset, hid⟩ := Option.map_eq_some_iff.mp hc
      rw [Feed.observe_observers] at hcb
      rcases List.mem_append.mp hcb with hold | hnew
      · exact h.observer c cb hold
      · rw [List.mem_singleton] at hnew
        subst hnew
        exact ⟨screen, community, hs, rfl, hset, hid⟩
    · exact h.observer c cb hcb
  · intro s' screen' community hs' hset'
    rw [appeared_screens] at hs'
    have hkeep : appended (w.appeared s screen userid) community.communityID s' =
        appended w community.communityID s' := by
      rw [appended, appended, appeared_messages]
      split_ifs
      · rw [Feed.eventsOf_observe]
      · rfl
    rw [hkeep]
    exact h.array s' screen' community hs' hset'

/-- A delivery to screen `s` appends what the child decodes to. -/
theorem appended_deliver {w : World} {c : String} {o : ℕ} {key : String}
    {cb : Callback ℕ ℕ} {value : Value} {feed : Feed String Value ℕ ℕ}
    (h : (w.messages c).deliver o key = some (cb, value, feed)) (c' : String) (s : ℕ) :
    appended (w.setFeed c feed) c' s = appended w c' s ++
      if c' = c ∧ cb.owner = s
      then ((decodeMessage value).map fun message => (key, message)).toList else [] := by
  obtain ⟨hcb, -, -, hr, -, -, ho, -⟩ := Feed.deliver_eq_some h
  by_cases hc : c' = c
  · subst hc
    rw [appended, appended, setFeed_messages, if_pos rfl, Feed.eventsOf_raise hr ho hcb,
      List.filterMap_append]
    by_cases hs : cb.owner = s
    · cases hd : decodeMessage value <;> simp [hs, hd]
    · simp [hs]
  · rw [appended, appended, setFeed_messages, if_neg hc]
    simp [hc]

theorem Valid.delivered {w : World} (h : Valid w) {c : String} {o : ℕ} {key : String}
    {cb : Callback ℕ ℕ} {value : Value} {feed : Feed String Value ℕ ℕ} {screen : Screen}
    (hd : (w.messages c).deliver o key = some (cb, value, feed))
    (hs : w.screens[cb.owner]? = some screen) :
    Valid ((w.setFeed c feed).setScreen cb.owner
      { screen with vc := (screen.vc.childAdded value).1 }) := by
  obtain ⟨hcb, -, -, -, -, -, ho, -⟩ := Feed.deliver_eq_some hd
  have hlt := (List.getElem?_eq_some_iff.mp hs).1
  obtain ⟨owner, community, hown, hdev, hset, hid⟩ :=
    h.observer c cb (List.mem_of_getElem? hcb)
  obtain rfl : owner = screen := Option.some.inj (hown.symm.trans hs)
  constructor
  · intro s x hx
    rw [setScreen_screens, setFeed_screens] at hx
    by_cases he : cb.owner = s
    · subst he
      rw [List.getElem?_set_self hlt] at hx
      obtain rfl := Option.some.inj hx
      exact ⟨community, by simpa using hset⟩
    · rw [List.getElem?_set_ne he] at hx
      exact h.community s x hx
  · intro c' cb' hcb'
    rw [setScreen_messages, setFeed_observers ho] at hcb'
    obtain ⟨x, y, hx, hrest⟩ := h.observer c' cb' hcb'
    by_cases he : cb'.owner = cb.owner
    · obtain rfl : x = owner := Option.some.inj (hx.symm.trans (he ▸ hs))
      exact ⟨{ x with vc := (x.vc.childAdded value).1 }, y, by simp [he, hlt], hrest.1,
        by simpa using hrest.2.1, hrest.2.2⟩
    · exact ⟨x, y, by simp [List.getElem?_set_ne (Ne.symm he), hx], hrest⟩
  · intro s x y hx hy
    have happ := appended_deliver hd y.communityID s
    rw [setScreen_screens, setFeed_screens] at hx
    change x.vc.messageArr = (appended (w.setFeed c feed) y.communityID s).map Prod.snd
    rw [happ, List.map_append]
    by_cases he : cb.owner = s
    · subst he
      rw [List.getElem?_set_self hlt] at hx
      obtain rfl := Option.some.inj hx
      obtain rfl : community = y := by simpa [hset] using hy
      rw [ChatScreentVC.childAdded_messageArr, h.array _ _ _ hs hset]
      cases decodeMessage value <;> simp [hid]
    · rw [List.getElem?_set_ne he] at hx
      simp [he, h.array s x y hx hy]

theorem step_valid {w w' : World} {a : Act} (h : Valid w) (hstep : step w a = some w') :
    Valid w' := by
  cases step_effect hstep with
  | signedIn | usersWritten | sentNothing | nameServed =>
    exact h.congr (fun _ => rfl) (fun _ => rfl) rfl
  | opened client community => exact h.opened client community
  | appeared hs _ => exact h.appeared hs _
  | popped hs => exact h.congr (fun _ => rfl) (fun _ => rfl) (map_set_eq hs rfl)
  | edited _ hs => exact h.congr (fun _ => rfl) (fun _ => rfl) (map_set_eq hs rfl)
  | sent _ _ _ _ hw =>
    obtain ⟨-, -, -, ho, hr, -⟩ := Feed.write_eq_some hw
    exact h.congr (setFeed_raised hr) (setFeed_observers ho) rfl
  | inserted hi =>
    obtain ⟨-, -, -, ho, hr, -⟩ := Feed.insert_eq_some hi
    exact h.congr (setFeed_raised hr) (setFeed_observers ho) rfl
  | accepted ha hs =>
    obtain ⟨_, -, -, -, ho, hr, -⟩ := Feed.accept_eq_some ha
    exact h.congr (setFeed_raised hr) (setFeed_observers ho) (map_set_eq hs rfl)
  | rejected hj hs =>
    obtain ⟨_, -, -, -, ho, hr, -⟩ := Feed.reject_eq_some hj
    exact h.congr (setFeed_raised hr) (setFeed_observers ho) (map_set_eq hs rfl)
  | delivered hd hs => exact h.delivered hd hs
  | nameAnswered _ _ _ hs hvc =>
    obtain ⟨user, -, rfl⟩ := ChatScreentVC.userNameAnswer_eq_ok.mp hvc
    exact h.congr (fun _ => rfl) (fun _ => rfl) (map_set_eq hs rfl)

theorem run_valid {currentUser : ℕ → Option String} {users : String → Option Fields}
    {as : List Act} {w : World} (h : Run step (initial currentUser users) as w) : Valid w :=
  h.invariant (initial_valid currentUser users) step_valid

end LoopChat.ChatSystem
