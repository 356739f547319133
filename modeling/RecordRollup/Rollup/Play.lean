import RecordRollup.Record

/-!
What happens in a run over a stream of records, as a list of events, and the parts that runs are made
of: each of them adds events, changes the state of the handler, and may end the run.
-/

namespace RecordRollup.Rollup

inductive Event
  | asked
  | opened (depth : Nat) (field : String) (first : Record)
  /-- The handler is called to read the records of the innermost group. -/
  | entered (depth : Nat)
  | gave (record : Record)
  /-- A record of the group comes after the handler has left it. -/
  | skipped (record : Record)
  /-- The handler asks for a record of a group that has no more. -/
  | gaveNothing
  /-- The handler returns from reading a group, of which it was given records up to `last`. -/
  | left (last : Option Record)
  /-- The stream goes on with another group that shares some fields with the one before. -/
  | boundary (shared : Nat)
  | closed (depth : Nat) (field : String) (last : Record)
deriving DecidableEq

/-- What has happened in a part of a run, and the handler's state after it. -/
structure Played (σ α : Type) where
  events : List Event
  state : σ
  outcome : Except Error α

/-- A part of a run with a handler whose state is a `σ`. -/
def Play (σ α : Type) : Type :=
  σ → Played σ α

namespace Play

variable {σ α β : Type}

instance : Monad (Play σ) where
  pure value := fun state => ⟨[], state, .ok value⟩
  bind first next := fun state =>
    match first state with
    | ⟨events, state, .error error⟩ => ⟨events, state, .error error⟩
    | ⟨events, state, .ok value⟩ =>
        let rest := next value state
        ⟨events ++ rest.events, rest.state, rest.outcome⟩

def fail (error : Error) : Play σ α :=
  fun state => ⟨[], state, .error error⟩

def say (event : Event) : Play σ Unit :=
  fun state => ⟨[event], state, .ok ()⟩

/-- Changes the handler's state and gives what the change answers. -/
def change (step : σ → σ × α) : Play σ α :=
  fun state => ⟨[], (step state).1, .ok (step state).2⟩

def call (event : Event) (callback : σ → σ × Option Error) : Play σ Unit := do
  say event
  match ← change callback with
  | none => pure ()
  | some error => fail error

end Play

end RecordRollup.Rollup
