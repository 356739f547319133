import RecordRollup.Error

namespace RecordRollup

namespace Log

inductive Level
  | debug
  | info
  | warn
deriving DecidableEq, Repr

def Level.label : Level → String
  | debug => "DEBUG"
  | info => "INFO"
  | warn => "WARN"

structure Line where
  level : Level
  message : String
deriving DecidableEq, Repr

def Line.text (line : Line) : String :=
  s!"[{line.level.label}] {line.message}"

/-- What a file holds after these lines have been appended to it. A message may break its line. -/
def text (lines : List Line) : String :=
  String.join (lines.map fun line => line.text ++ "\n")

/-- A line of named measurements, each of them between quotes. -/
def metric (measurements : List (String × String)) : Line :=
  let shown := measurements.map fun (name, value) => s!"\"{name}\": \"{value}\""
  ⟨.debug, "\x7b " ++ ", ".intercalate shown ++ " \x7d"⟩

def directoryOf (path : String) : String :=
  String.ofList ((path.toList.reverse.dropWhile (· ≠ '/')).drop 1).reverse

/-- Whether lines can be appended to a file, whose directory has to be there; without a file they
always can. -/
def canAppend (hasDirectory : String → Bool) : Option String → Except Error Unit
  | none => .ok ()
  | some path =>
      if path ≠ "" ∧ hasDirectory (directoryOf path) then .ok () else .error (.file .notFound)

end Log

end RecordRollup
