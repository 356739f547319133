import RecordRollup.Rollup.Grouper
import RecordRollup.Rollup.Play

/-!
Runs of a grouper over a stream of records: which groups open and close, and what a handler is given
of each. The stream is read one item at a time, and never before the item is needed.
-/

namespace RecordRollup.Rollup

/-- A handler of groups, with a state that each call changes. A call that returns an error ends the
run. Between `entered` and `left` the handler is given records of the innermost group as long as it
`wants` more; when there are none it is told so by `ended`, and asks again as many times as that
answers, in vain. -/
structure Handler (σ : Type) where
  opened : (depth : Nat) → (field : String) → (first : Record) → σ → σ × Option Error
  entered : (depth : Nat) → σ → σ
  wants : σ → Bool
  given : Record → σ → σ
  ended : σ → σ × Nat
  left : (last : Option Record) → σ → σ × Option Error
  closed : (depth : Nat) → (field : String) → (last : Record) → σ → σ × Option Error

/-- Where a run stands when it asks for the next item of the stream. -/
inductive Stage
  | start
  /-- In a group, of which `last` is the last record read; the handler is still being given records
  of it, or has left it. -/
  | inside (last : Record) (reading : Bool)
deriving DecidableEq

variable {σ : Type} (grouper : Grouper) (handler : Handler σ)

open Play

def openFrom (level : Nat) (first : Record) : Play σ Unit :=
  (grouper.levelsFrom level).forM fun (depth, field) =>
    call (.opened depth field first) (handler.opened depth field first)

def closeTo (level : Nat) (last : Record) : Play σ Unit :=
  (grouper.levelsFrom level).reverse.forM fun (depth, field) =>
    call (.closed depth field last) (handler.closed depth field last)

def leave (last : Option Record) : Play σ Unit :=
  call (.left last) (handler.left last)

/-- Gives the handler a record that it wants. If it wants no more it leaves the group. -/
def give (record : Record) : Play σ Stage := do
  say (.gave record)
  change fun state => (handler.given record state, ())
  if ← change fun state => (state, handler.wants state) then
    return .inside record true
  else
    leave handler (some record)
    return .inside record false

def enter (first : Record) : Play σ Stage := do
  say (.entered (grouper.size - 1))
  change fun state => (handler.entered (grouper.size - 1) state, ())
  if ← change fun state => (state, handler.wants state) then
    give handler first
  else
    leave handler none
    say (.skipped first)
    return .inside first false

/-- The end of a group, of which a handler that is still reading is told. -/
def conclude (last : Record) (reading : Bool) : Play σ Unit := do
  if reading then
    say .gaveNothing
    let again ← change handler.ended
    (List.replicate again Event.gaveNothing).forM say
    leave handler (some last)

/-- One item of the stream. A record of the same innermost group goes to a handler that is still
reading; any other one closes the groups whose fields it does not share, and opens its own. -/
def advance : Stage → Except Error Record → Play σ Stage
  | .start, .error error => fail error
  | .start, .ok first => do
      openFrom grouper handler grouper.base first
      enter grouper handler first
  | .inside last reading, .error error => do
      conclude handler last reading
      fail error
  | .inside last reading, .ok next =>
      match grouper.sharedFields last next with
      | .error error => do
          conclude handler last reading
          fail error
      | .ok shared =>
          if shared = grouper.size then
            if reading then give handler next
            else do
              say (.skipped next)
              return .inside next false
          else do
            conclude handler last reading
            say (.boundary shared)
            let level := max shared grouper.base
            closeTo grouper handler level last
            openFrom grouper handler level next
            enter grouper handler next

def finish : Stage → Play σ Unit
  | .start => pure ()
  | .inside last reading => do
      conclude handler last reading
      closeTo grouper handler grouper.base last

def runFrom : Stage → List (Except Error Record) → Play σ Unit
  | stage, [] => do
      say .asked
      finish grouper handler stage
  | stage, item :: rest => do
      say .asked
      let stage ← advance grouper handler stage item
      runFrom stage rest

/-- The run over a stream, whose items are records or the errors that end it. -/
def run (stream : List (Except Error Record)) : Play σ Unit :=
  runFrom grouper handler .start stream

/-- The run over records that are all there, so that only the work on them can fail. -/
def runRecords (records : List Record) : Play σ Unit :=
  run grouper handler (records.map .ok)

def eventLog : Event → List Log.Line
  | .boundary shared =>
      [⟨.debug, s!"Boundary after {shared} shared group-by field(s): " ++
        s!"closing depths {max shared grouper.base}..{grouper.size - 1}"⟩]
  | _ => []

def groupCount (events : List Event) : Nat :=
  events.countP fun event => match event with
    | .entered _ => true
    | _ => false

def runLog (played : Played σ Unit) : List Log.Line :=
  played.events.flatMap (eventLog grouper) ++
    match played.outcome with
    | .ok () =>
        [Log.metric [("event", "grouping_finished"),
          ("groups", toString (groupCount played.events))]]
    | .error _ => []

end RecordRollup.Rollup
