import Mathlib
import RecordRollup.Proofs.Rollup.Play
import RecordRollup.Rollup.Elements

/-!
The loop over the groups is the run over the stream: it is done after as many rounds as there can be
groups, what it does is what a run does, and the errors that would be faults of its own never arise.
-/

namespace RecordRollup.Rollup

open Play

variable {σ α : Type} {grouper : Grouper} {handler : Handler σ} {first last next : Record}
  {upstream rest : List (Except Error Record)} {elements ending : Elements}

namespace Elements

/-- A group that goes on after a record of it. -/
def inside (last : Record) (upstream : List (Except Error Record)) : Elements :=
  ⟨upstream, none, some last, none, none, false⟩

theorem next_start (grouper : Grouper) (first : Record) (upstream : List (Except Error Record)) :
    (start first upstream).next grouper = (some first, inside first upstream) := rfl

theorem upstream_pull (grouper : Grouper) (elements : Elements) :
    (elements.pull grouper).2.upstream =
      if elements.first.isNone then elements.upstream.tail else elements.upstream := by
  rcases elements with ⟨_ | ⟨_ | next, rest⟩, _ | first, _ | last, boundary, error, finished⟩
  case cons.ok.none.some =>
    simp only [pull]
    cases grouper.sharedFields last next with
    | error error => rfl
    | ok shared =>
        dsimp only
        split <;> rfl
  all_goals rfl

/-- An item is taken from the stream just when the stream is asked for it. -/
theorem upstream_next (grouper : Grouper) (elements : Elements) :
    (elements.next grouper).2.upstream =
      if elements.asks then elements.upstream.tail else elements.upstream := by
  have hpulled := upstream_pull grouper elements
  rw [Elements.next, asks]
  cases elements.finished with
  | true => rfl
  | false =>
      rcases hpull : elements.pull grouper with ⟨_ | _ | record, rest⟩ <;>
        simpa [hpull] using hpulled

theorem next_of_finished (hfinished : elements.finished = true) :
    elements.next grouper = (none, elements) := by
  rw [Elements.next, if_pos hfinished]

theorem next_nil :
    (inside last []).next grouper = (none, ⟨[], none, some last, none, none, true⟩) := rfl

theorem next_error (error : Error) :
    (inside last (.error error :: rest)).next grouper =
      (none, ⟨rest, none, some last, none, some error, true⟩) := rfl

theorem next_of_unshared {error : Error} (hshared : grouper.sharedFields last next = .error error) :
    (inside last (.ok next :: rest)).next grouper =
      (none, ⟨rest, none, some last, none, some error, true⟩) := by
  simp [Elements.next, pull, inside, hshared]

theorem next_of_same (hshared : grouper.sharedFields last next = .ok grouper.size) :
    (inside last (.ok next :: rest)).next grouper = (some next, inside next rest) := by
  simp [Elements.next, pull, inside, hshared]

theorem next_of_other {shared : Nat} (hshared : grouper.sharedFields last next = .ok shared)
    (hother : shared ≠ grouper.size) :
    (inside last (.ok next :: rest)).next grouper =
      (none, ⟨rest, none, some last, some (next, shared), none, true⟩) := by
  simp [Elements.next, pull, inside, hshared, hother]

end Elements

open Elements

theorem askFor_of_finished (hfinished : elements.finished = true) :
    askFor elements = (pure () : Play σ Unit) := by
  rw [askFor, asks, hfinished]
  rfl

theorem askAgain_of_finished (hfinished : elements.finished = true) (count : Nat) :
    askAgain grouper count elements = (do
      (List.replicate count Event.gaveNothing).forM say
      pure elements : Play σ Elements) := by
  induction count with
  | zero => rfl
  | succ count ih =>
      rw [askAgain, askFor_of_finished hfinished, next_of_finished hfinished, pure_bind]
      simp only [ih, List.replicate_succ, List.forM_eq_forM, List.forM_cons, bind_assoc]

theorem drain_eq (elements : Elements) :
    drain grouper elements = (do
      askFor elements
      match elements.next grouper with
      | (some record, rest) => do
          say (.skipped record)
          drain grouper rest
      | (none, rest) => return rest : Play σ Elements) := by
  rw [drain]
  congr 1
  funext _
  split <;> next heq => rw [heq]

theorem drain_of_finished (hfinished : elements.finished = true) :
    drain grouper elements = (pure elements : Play σ Elements) := by
  rw [drain_eq, next_of_finished hfinished, askFor_of_finished hfinished, pure_bind]

theorem serve_eq (elements : Elements) :
    serve grouper handler elements = (do
      askFor elements
      match elements.next grouper with
      | (some record, rest) => do
          say (.gave record)
          change fun state => (handler.given record state, ())
          if ← change fun state => (state, handler.wants state) then
            serve grouper handler rest
          else
            leave handler rest.last
            return rest
      | (none, rest) => do
          say .gaveNothing
          let again ← change handler.ended
          let rest ← askAgain grouper again rest
          leave handler rest.last
          return rest) := by
  rw [serve]
  congr 1
  funext _
  split <;> next heq => rw [heq]

variable (grouper handler) in
/-- The rest of a group after a record of it, which a handler still reads or has left. -/
def collect (reading : Bool) (elements : Elements) : Play σ Elements :=
  if reading then serve grouper handler elements >>= drain grouper else drain grouper elements

theorem askFor_inside : askFor (inside last upstream) = (say .asked : Play σ Unit) := rfl

theorem collect_of_none (hnext : (inside last upstream).next grouper = (none, ending))
    (hfinished : ending.finished = true) (hlast : ending.last = some last) (reading : Bool) :
    collect grouper handler reading (inside last upstream) = (do
      say .asked
      conclude handler last reading
      pure ending) := by
  cases reading with
  | true =>
      simp only [collect, if_true, serve_eq, hnext, askAgain_of_finished hfinished, askFor_inside,
        conclude, hlast, bind_assoc, pure_bind, drain_of_finished hfinished]
  | false =>
      simp only [collect, Bool.false_eq_true, if_false, drain_eq (inside last upstream), hnext,
        askFor_inside, conclude, pure_bind]

theorem collect_true_of_some {record : Record}
    (hnext : elements.next grouper = (some record, inside record rest))
    (following : Elements → Play σ α) (after : Stage → Play σ α)
    (hafter : ∀ reading, collect grouper handler reading (inside record rest) >>= following =
      after (.inside record reading)) :
    collect grouper handler true elements >>= following = (do
      askFor elements
      after (← give handler record)) := by
  simp only [collect, if_true, serve_eq elements, hnext, give, bind_assoc]
  congr 1; funext _
  congr 1; funext _
  congr 1; funext _
  congr 1; funext wants
  cases wants with
  | true =>
      simp only [if_true, pure_bind, ← hafter, collect, bind_assoc]
  | false =>
      have hleft : (inside record rest).last = some record := rfl
      simp only [Bool.false_eq_true, if_false, bind_assoc, pure_bind, ← hafter, collect, hleft]

theorem collect_false_of_some (handler : Handler σ) {record : Record}
    (hnext : elements.next grouper = (some record, inside record rest))
    (following : Elements → Play σ α) :
    collect grouper handler false elements >>= following = (do
      askFor elements
      say (.skipped record)
      collect grouper handler false (inside record rest) >>= following) := by
  simp only [collect, Bool.false_eq_true, if_false, drain_eq elements, hnext, bind_assoc]

theorem deliver_bind (following : Record × Elements → Play σ α) (after : Stage → Play σ α)
    (hafter : ∀ reading, (do
        let elements ← collect grouper handler reading (inside first upstream)
        following (← settle elements)) = after (.inside first reading)) :
    deliver grouper handler first upstream >>= following =
      enter grouper handler first >>= after := by
  have hasks : askFor (start first upstream) = (pure () : Play σ Unit) := rfl
  simp only [deliver, enter, bind_assoc]
  congr 1; funext _
  congr 1; funext _
  congr 1; funext wants
  cases wants with
  | true =>
      have hread := collect_true_of_some (next_start grouper first upstream) _ after hafter
      rw [hasks, pure_bind] at hread
      simpa only [collect, if_true, bind_assoc] using hread
  | false =>
      have hskip := collect_false_of_some handler (next_start grouper first upstream)
        fun elements => settle elements >>= following
      rw [hasks, pure_bind, hafter] at hskip
      have hleft : (start first upstream).last = none := rfl
      simp only [Bool.false_eq_true, if_false, bind_assoc, pure_bind, hleft]
      congr 1; funext _
      simpa only [collect, Bool.false_eq_true, if_false] using hskip

theorem rounds_done (count : Nat) : rounds grouper handler count .done = pure .done := by
  induction count with
  | zero => rfl
  | succ count ih => rw [rounds, round, pure_bind, ih]

variable (grouper handler) in
/-- What comes after the rest of a group. -/
def roundsAfter (count : Nat) (elements : Elements) : Play σ Phase := do
  let (last, elements) ← settle elements
  rounds grouper handler count (← moveOn grouper handler last elements)

theorem rounds_inGroup {count : Nat}
    (hafter : ∀ reading,
      collect grouper handler reading (inside first upstream) >>=
          roundsAfter grouper handler count =
        (do runFrom grouper handler (.inside first reading) upstream; return .done)) :
    rounds grouper handler (count + 1) (.inGroup first upstream) = (do
      let stage ← enter grouper handler first
      runFrom grouper handler stage upstream
      return .done) := by
  rw [rounds, round, bind_assoc]
  exact deliver_bind (fun (last, elements) => do
    rounds grouper handler count (← moveOn grouper handler last elements)) _ hafter

/-- The rest of a group and the rounds after it are what a run does from there on. -/
theorem collect_bind_roundsAfter (last : Record) (reading : Bool) {count : Nat}
    (hcount : upstream.length ≤ count) :
    collect grouper handler reading (inside last upstream) >>= roundsAfter grouper handler count =
      (do runFrom grouper handler (.inside last reading) upstream; return .done) := by
  -- By induction on the items that are left: an item ends the group, and with it the run or only
  -- the round, unless it is one more record of the group.
  induction upstream generalizing last reading count with
  | nil =>
      rw [collect_of_none next_nil rfl rfl]
      simp only [roundsAfter, settle, moveOn, runFrom, finish, bind_assoc, pure_bind, rounds_done]
  | cons item rest ih =>
      cases item with
      | error error =>
          rw [collect_of_none (next_error error) rfl rfl]
          simp only [roundsAfter, settle, runFrom, advance, bind_assoc, pure_bind, fail_bind]
      | ok next =>
          cases hshared : grouper.sharedFields last next with
          | error error =>
              rw [collect_of_none (next_of_unshared hshared) rfl rfl]
              simp only [roundsAfter, settle, runFrom, advance, hshared, bind_assoc, pure_bind,
                fail_bind]
          | ok shared =>
              rcases eq_or_ne shared grouper.size with rfl | hother
              · have hrest := fun reading => ih next reading (Nat.le_of_succ_le hcount)
                cases reading with
                | true =>
                    rw [collect_true_of_some (next_of_same hshared) _ (fun stage => do
                      runFrom grouper handler stage rest
                      return Phase.done) hrest, askFor_inside]
                    simp only [runFrom, advance, hshared, if_true, bind_assoc]
                | false =>
                    rw [collect_false_of_some handler (next_of_same hshared), askFor_inside, hrest]
                    simp only [runFrom, advance, hshared, if_true, Bool.false_eq_true, if_false,
                      bind_assoc, pure_bind]
              · obtain ⟨count, rfl⟩ := Nat.exists_eq_add_one_of_ne_zero (Nat.ne_zero_of_lt hcount)
                have hrest := fun reading => ih next reading (Nat.le_of_succ_le_succ hcount)
                rw [collect_of_none (next_of_other hshared hother) rfl rfl]
                simp only [roundsAfter, settle, moveOn, runFrom, advance, hshared, if_neg hother,
                  bind_assoc, pure_bind, rounds_inGroup hrest]

/-- The loop over the groups does what a run does, and is done after at most one round for each item
and two more. -/
theorem rounds_eq_run (stream : List (Except Error Record)) {count : Nat}
    (hcount : stream.length + 2 ≤ count) :
    rounds grouper handler count (.idle stream) = (do
      run grouper handler stream
      return .done) := by
  obtain ⟨count, rfl⟩ := Nat.exists_eq_add_one_of_ne_zero (Nat.ne_zero_of_lt hcount)
  rcases stream with _ | ⟨_ | first, rest⟩
  · simp only [rounds, round, run, runFrom, finish, bind_assoc, pure_bind, rounds_done]
  · simp only [rounds, round, run, runFrom, advance, bind_assoc, fail_bind]
  · have hrounds : rest.length < count := by
      rw [List.length_cons] at hcount
      omega
    obtain ⟨count, rfl⟩ := Nat.exists_eq_add_one_of_ne_zero (Nat.ne_zero_of_lt hrounds)
    have hrest : ∀ reading,
        collect grouper handler reading (inside first rest) >>= roundsAfter grouper handler count =
          (do runFrom grouper handler (.inside first reading) rest; return .done) :=
      fun reading => collect_bind_roundsAfter first reading (Nat.le_of_lt_succ hrounds)
    rw [rounds]
    simp only [round, run, runFrom, advance, bind_assoc, pure_bind, rounds_inGroup hrest]

end RecordRollup.Rollup
