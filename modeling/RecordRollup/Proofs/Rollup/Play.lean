import Mathlib
import RecordRollup.Rollup.Play

namespace RecordRollup.Rollup.Play

variable {σ α β : Type}

instance : LawfulMonad (Play σ) :=
  LawfulMonad.mk' _
    (by
      intro α play
      funext state
      change (match play state with
        | ⟨events, state, .error error⟩ => (⟨events, state, .error error⟩ : Played σ α)
        | ⟨events, state, .ok value⟩ => ⟨events ++ [], state, .ok value⟩) = play state
      rcases play state with ⟨events, state, _ | _⟩ <;> simp)
    (fun _ _ => rfl)
    (by
      intro α β γ play next last
      funext state
      simp only [bind]
      rcases play state with ⟨events, middle, _ | value⟩
      · rfl
      · rcases hnext : next value middle with ⟨others, state, _ | other⟩
        · simp [hnext]
        · simp [hnext])

theorem bind_of_ok {play : Play σ α} {next : α → Play σ β} {state : σ} {value : α}
    (houtcome : (play state).outcome = .ok value) :
    (play >>= next) state =
      ⟨(play state).events ++ (next value (play state).state).events,
        (next value (play state).state).state, (next value (play state).state).outcome⟩ := by
  simp only [bind]
  rcases hplayed : play state with ⟨events, middle, _ | other⟩
  · simp [hplayed] at houtcome
  · obtain rfl : other = value := by simpa [hplayed] using houtcome
    rfl

theorem bind_of_error {play : Play σ α} {next : α → Play σ β} {state : σ} {error : Error}
    (houtcome : (play state).outcome = .error error) :
    (play >>= next) state = ⟨(play state).events, (play state).state, .error error⟩ := by
  simp only [bind]
  rcases hplayed : play state with ⟨events, middle, other | _⟩
  · obtain rfl : other = error := by simpa [hplayed] using houtcome
    rfl
  · simp [hplayed] at houtcome

theorem outcome_bind_eq_ok_iff {play : Play σ α} {next : α → Play σ β} {state : σ} {result : β} :
    ((play >>= next) state).outcome = .ok result ↔
      ∃ value, (play state).outcome = .ok value ∧
        (next value (play state).state).outcome = .ok result := by
  cases houtcome : (play state).outcome with
  | error error => simp [bind_of_error houtcome]
  | ok value => simp [bind_of_ok houtcome]

theorem events_bind_pure (play : Play σ α) (value : β) (state : σ) :
    ((play >>= fun _ => pure value) state).events = (play state).events := by
  cases houtcome : (play state).outcome with
  | error error => rw [bind_of_error houtcome]
  | ok other =>
      rw [bind_of_ok houtcome]
      exact List.append_nil _

theorem fail_bind (error : Error) (next : α → Play σ β) :
    (fail error >>= next) = fail error := rfl

theorem say_bind (event : Event) (next : Unit → Play σ α) (state : σ) :
    (say event >>= next) state =
      ⟨event :: (next () state).events, (next () state).state, (next () state).outcome⟩ := rfl

theorem change_bind (step : σ → σ × α) (next : α → Play σ β) (state : σ) :
    (change step >>= next) state = next (step state).2 (step state).1 := rfl

theorem call_of_none {callback : σ → σ × Option Error} {state : σ} (event : Event)
    (hcallback : (callback state).2 = none) :
    call event callback state = ⟨[event], (callback state).1, .ok ()⟩ := by
  rw [call, say_bind, change_bind, hcallback]
  rfl

theorem call_of_some {callback : σ → σ × Option Error} {state : σ} {error : Error} (event : Event)
    (hcallback : (callback state).2 = some error) :
    call event callback state = ⟨[event], (callback state).1, .error error⟩ := by
  rw [call, say_bind, change_bind, hcallback]
  rfl

theorem events_call (event : Event) (callback : σ → σ × Option Error) (state : σ) :
    (call event callback state).events = [event] := by
  cases hcallback : (callback state).2 with
  | none => rw [call_of_none event hcallback]
  | some error => rw [call_of_some event hcallback]

theorem events_forM_call {γ : Type} {items : List γ} {event : γ → Event}
    {callback : γ → σ → σ × Option Error} {state : σ}
    (houtcome : ((forM items fun item => call (event item) (callback item) : Play σ Unit)
      state).outcome = .ok ()) :
    ((forM items fun item => call (event item) (callback item) : Play σ Unit) state).events =
      items.map event := by
  induction items generalizing state with
  | nil => rfl
  | cons item items ih =>
      rw [List.forM_cons] at houtcome ⊢
      obtain ⟨_, hcall, hrest⟩ := outcome_bind_eq_ok_iff.mp houtcome
      rw [bind_of_ok hcall, events_call, ih hrest]
      rfl

theorem forM_say_map {γ : Type} (items : List γ) (event : γ → Event) (state : σ) :
    (forM items fun item => say (event item) : Play σ Unit) state =
      ⟨items.map event, state, .ok ()⟩ := by
  induction items with
  | nil => rfl
  | cons item items ih => rw [List.forM_cons, say_bind, ih, List.map_cons]

theorem forM_say (events : List Event) (state : σ) :
    forM events (say : Event → Play σ Unit) state = ⟨events, state, .ok ()⟩ := by
  simpa using forM_say_map events id state

/-- A part of a run with some of its events only. -/
def keeping (keep : Event → Bool) (play : Play σ α) : Play σ α :=
  fun state => { play state with events := (play state).events.filter keep }

variable {keep : Event → Bool}

@[simp] theorem keeping_pure (value : α) :
    keeping keep (pure value : Play σ α) = pure value := rfl

@[simp] theorem keeping_change (step : σ → σ × α) :
    keeping keep (change step) = change step := rfl

theorem keeping_say_of_keep {event : Event} (hevent : keep event = true) :
    keeping keep (say event : Play σ Unit) = say event := by
  funext state
  simp [keeping, say, hevent]

theorem keeping_say_of_not_keep {event : Event} (hevent : keep event = false) :
    keeping keep (say event : Play σ Unit) = pure () := by
  funext state
  simp [keeping, say, hevent, pure]

@[simp] theorem keeping_bind (play : Play σ α) (next : α → Play σ β) :
    keeping keep (play >>= next) =
      keeping keep play >>= fun value => keeping keep (next value) := by
  funext state
  simp only [keeping, bind]
  rcases play state with ⟨events, middle, _ | value⟩
  · rfl
  · simp

@[simp] theorem keeping_forM {γ : Type} (items : List γ) (play : γ → Play σ Unit) :
    keeping keep (forM items play) = forM items fun item => keeping keep (play item) := by
  induction items with
  | nil => rfl
  | cons item items ih => simp only [List.forM_cons, keeping_bind, ih]

theorem keeping_forM_say {events : List Event} (hevents : ∀ event ∈ events, keep event = true) :
    keeping keep (forM events (say : Event → Play σ Unit)) = forM events say := by
  induction events with
  | nil => rfl
  | cons event events ih =>
      have hfirst := hevents event (by simp)
      have hrest := ih fun other hother => hevents other (by simp [hother])
      rw [List.forM_cons, keeping_bind, keeping_say_of_keep hfirst, hrest]

end RecordRollup.Rollup.Play
