import LoopChat.AppSystem
import LoopChat.WindowInvariants

/-!
# Invariants of the devices over whole runs

Auth changes its user when a request is served, the window changes only when the completion
handler runs. Between the two a property of a device may be broken; it is then restored by
the handler, so the invariants say "the property holds, or such a handler is due".
-/
namespace LoopChat.AppSystem
open NavigationWindow TransitionRuns

/-- A completion handler of the given kind is due on the device. -/
def Due (requests : List Request) (device : ℕ) (kind : Call → Answer → Bool) : Prop :=
  ∃ r ∈ requests, r.device = device ∧ ∃ answer, r.answer = some answer ∧ kind r.call answer = true

/-- No appearance and no completion handler is due on the device. -/
def World.Settled (w : World) (device : ℕ) : Prop :=
  (w.devices device).window.appearing = false ∧
    ∀ r ∈ w.requests, r.device = device → r.answer = none

variable {normalise : String → String} {stores : Stores} {session : ℕ → Option String}
  {w w' : World} {a : Act} {as : List Act} {kind : Call → Answer → Bool} {d : ℕ}
  {requests before after : List Request} {request : Request}

theorem Due.mono {requests' : List Request} (h : Due requests d kind)
    (hsub : requests ⊆ requests') : Due requests' d kind := by
  obtain ⟨r, hr, hd, answer, ha, hk⟩ := h
  exact ⟨r, hsub hr, hd, answer, ha, hk⟩

theorem World.Settled.not_due (h : w.Settled d) : ¬ Due w.requests d kind := by
  rintro ⟨r, hr, hd, answer, ha, -⟩
  simp [h.2 r hr hd] at ha

/-- A request on the list after an answer was there before, or is the one with the answer. -/
theorem mem_answered {r : Request} {answer : Answer}
    (hr : r ∈ before ++ { request with answer := some answer } :: after) :
    r ∈ before ++ request :: after ∨ r = { request with answer := some answer } := by
  rcases List.mem_append.mp hr with hr | hr
  · exact Or.inl (List.mem_append_left _ hr)
  · rcases List.mem_cons.mp hr with rfl | hr
    · exact Or.inr rfl
    · exact Or.inl (List.mem_append_right _ (List.mem_cons_of_mem _ hr))

theorem remaining_subset : before ++ after ⊆ before ++ request :: after := by
  have hsublist : (before ++ after).Sublist (before ++ request :: after) :=
    (List.sublist_cons_self request after).append_left before
  exact hsublist.subset

/-- Serving a request removes no handler that is due. -/
theorem Due.served (h : Due (before ++ request :: after) d kind) (hw : request.answer = none)
    (answer : Answer) :
    Due (before ++ { request with answer := some answer } :: after) d kind := by
  obtain ⟨r, hr, hd, b, ha, hk⟩ := h
  rcases List.mem_append.mp hr with hr | hr
  · exact ⟨r, List.mem_append_left _ hr, hd, b, ha, hk⟩
  · rcases List.mem_cons.mp hr with rfl | hr
    · simp [hw] at ha
    · exact ⟨r, List.mem_append_right _ (List.mem_cons_of_mem _ hr), hd, b, ha, hk⟩

/-- A handler that is due is the one being completed or stays due. -/
theorem due_append_cons (h : Due (before ++ request :: after) d kind) :
    (request.device = d ∧ ∃ answer, request.answer = some answer ∧
      kind request.call answer = true) ∨ Due (before ++ after) d kind := by
  obtain ⟨r, hr, hd, answer, ha, hk⟩ := h
  rcases List.mem_append.mp hr with hr | hr
  · exact Or.inr ⟨r, List.mem_append_left _ hr, hd, answer, ha, hk⟩
  · rcases List.mem_cons.mp hr with rfl | hr
    · exact Or.inl ⟨hd, answer, ha, hk⟩
    · exact Or.inr ⟨r, List.mem_append_right _ hr, hd, answer, ha, hk⟩

@[simp] theorem eraseIdx_length_append (before after : List Request) (request : Request) :
    (before ++ request :: after).eraseIdx before.length = before ++ after := by
  rw [List.eraseIdx_append_of_length_le le_rfl, Nat.sub_self, List.eraseIdx_cons_zero]

theorem layered_step (h : ∀ d, (w.devices d).Layered) (hs : step normalise w a = some w') (d : ℕ) :
    (w'.devices d).Layered := by
  have hupdate : ∀ {e : ℕ} {dev : Device}, dev.Layered →
      (Function.update w.devices e dev d).Layered := fun hdev =>
    (Function.forall_update_iff w.devices fun _ dev => dev.Layered).mpr ⟨hdev, fun d _ => h d⟩ d
  cases step_effect hs with
  | tapped tapped => exact hupdate ((h _).tap (Device.tap_effect tapped))
  | appeared appeared => exact hupdate ((h _).viewDidAppear appeared)
  | @served _ _ request _ answer _ at_i waiting serve =>
    exact hupdate ((h _).of_window_eq (Device.served_window _ request.call answer))
  | completed at_i answered running =>
    exact hupdate ((h _).complete (Device.complete_effect _ _ _ _))
  | signedOut e => exact hupdate ((h e).of_window_eq rfl)

theorem layered_run (h : Run (step normalise) (initial stores session) as w) (d : ℕ) :
    (w.devices d).Layered :=
  h.invariant (I := fun w => ∀ d, (w.devices d).Layered)
    (fun d => Device.layered_launched (session d)) (fun hI hs => layered_step hI hs) d

/-- What a guarded property of a device has to satisfy: only requests of the kind break it
while they are served, and everything else keeps it. -/
structure Guarded (P : Device → Prop) (kind : Call → Answer → Bool) : Prop where
  launched : ∀ user, P (Device.launched user)
  tap : ∀ {dev t reaction}, dev.Layered → Device.TapEffect dev t reaction → P dev →
    P reaction.after
  viewDidAppear : ∀ {dev reaction}, dev.Layered → dev.viewDidAppear = some reaction → P dev →
    P reaction.after
  served : ∀ {dev call answer}, kind call answer = false → P dev → P (dev.served call answer)
  complete : ∀ {dev issuer call answer}, dev.Layered → kind call answer = false → P dev →
    P (dev.complete issuer call answer).after

/-- The handlers of the kind restore the property, unless another one is due, and no user is
signed out by force where this breaks it. -/
def Restored (P : Device → Prop) (kind : Call → Answer → Bool) (w : World) : Act → Prop
  | .complete i => ∀ request answer, w.requests[i]? = some request →
      request.answer = some answer → kind request.call answer = true →
      P ((w.devices request.device).complete request.issuer request.call answer).after ∨
        Due (w.requests.eraseIdx i) request.device kind
  | .signOutByForce d => P (w.devices d) → P (w.devices d).signOutByForce
  | _ => True

theorem guarded_step {P : Device → Prop} (hP : Guarded P kind) (hL : ∀ d, (w.devices d).Layered)
    (h : ∀ d, P (w.devices d) ∨ Due w.requests d kind) (hC : Restored P kind w a)
    (hs : step normalise w a = some w') (d : ℕ) : P (w'.devices d) ∨ Due w'.requests d kind := by
  cases step_effect hs with
  | @tapped e _ reaction tapped =>
    refine (h d).imp (fun hp => ?_) fun hdue => hdue.mono (List.subset_append_left _ _)
    by_cases he : d = e
    · subst he
      simpa [World.follow] using hP.tap (hL d) (Device.tap_effect tapped) hp
    · simpa [World.follow, he] using hp
  | @appeared e reaction appeared =>
    refine (h d).imp (fun hp => ?_) fun hdue => hdue.mono (List.subset_append_left _ _)
    by_cases he : d = e
    · subst he
      simpa [World.follow] using hP.viewDidAppear (hL d) appeared hp
    · simpa [World.follow, he] using hp
  | @served _ _ request _ answer _ at_i waiting serve =>
    rcases h d with hp | hdue
    · by_cases he : d = request.device
      · subst he
        by_cases hk : kind request.call answer = true
        · exact Or.inr ⟨_, List.mem_append_right _ List.mem_cons_self, rfl, answer, rfl, hk⟩
        · exact Or.inl (by simpa using hP.served (by simpa using hk) hp)
      · exact Or.inl (by simpa [he] using hp)
    · exact Or.inr ((at_i ▸ hdue).served waiting answer)
  | @completed before after request answer at_i answered running =>
    by_cases he : d = request.device
    · subst he
      by_cases hk : kind request.call answer = true
      · refine (hC request answer (by simp [at_i]) answered hk).imp (fun hp => ?_) fun hdue => ?_
        · simpa [World.follow] using hp
        · rw [at_i, eraseIdx_length_append] at hdue
          exact hdue.mono (List.subset_append_left _ _)
      · rcases h request.device with hp | hdue
        · exact Or.inl (by
            simpa [World.follow] using hP.complete (hL _) (by simpa using hk) hp)
        · rcases due_append_cons (at_i ▸ hdue) with ⟨-, b, hb, hkb⟩ | hrest
          · obtain rfl := Option.some.inj (answered.symm.trans hb)
            exact absurd hkb hk
          · exact Or.inr (hrest.mono (List.subset_append_left _ _))
    · rcases h d with hp | hdue
      · exact Or.inl (by simpa [World.follow, he] using hp)
      · rcases due_append_cons (at_i ▸ hdue) with ⟨hd, -⟩ | hrest
        · exact absurd hd.symm he
        · exact Or.inr (hrest.mono (List.subset_append_left _ _))
  | signedOut e =>
    refine (h d).imp_left fun hp => ?_
    by_cases he : d = e
    · subst he
      simpa using hC hp
    · simpa [he] using hp

/-- The rule for guarded properties: in a run in which every handler of the kind restores the
property, it holds on every device on which no such handler is due. -/
theorem guarded_run {P : Device → Prop} (hP : Guarded P kind)
    (h : Run (step normalise) (initial stores session) as w)
    (hC : Along (step normalise) (initial stores session) (Restored P kind) as) (d : ℕ) :
    P (w.devices d) ∨ Due w.requests d kind := by
  have hboth : ∀ d, (w.devices d).Layered ∧ (P (w.devices d) ∨ Due w.requests d kind) := by
    refine h.invariant_along (I := fun w => ∀ d, (w.devices d).Layered ∧
      (P (w.devices d) ∨ Due w.requests d kind)) hC ?_ ?_
    · exact fun d => ⟨Device.layered_launched (session d), Or.inl (hP.launched (session d))⟩
    · intro t a u hI hCa hs d
      exact ⟨layered_step (fun d => (hI d).1) hs d,
        guarded_step hP (fun d => (hI d).1) (fun d => (hI d).2) hCa hs d⟩
  exact (hboth d).2

end LoopChat.AppSystem
