import FencedCode.Text.Quoted

/-!
# Events

A run reports what it does as a sequence of events, each with a level, the part of the
program that reports it and a line of text.  `Logged` is the outcome of an activity that
can fail and reports events on the way; the events up to a failure are kept.
-/

namespace FencedCode

/-- How much an event matters, the most important level first. -/
inductive Level where
  | error
  | warn
  | info
  | debug
  | trace
  deriving DecidableEq

namespace Level

/-- The position of a level, which grows as its importance falls. -/
def rank : Level → Nat
  | error => 1
  | warn => 2
  | info => 3
  | debug => 4
  | trace => 5

/-- How a level is named in a line. -/
def name : Level → String
  | error => "ERROR"
  | warn => "WARN"
  | info => "INFO"
  | debug => "DEBUG"
  | trace => "TRACE"

end Level

/-- Something that a run reports. -/
inductive Event where
  /-- A property has a value that no property can have. -/
  | propertyDropped (name : String)
  /-- The classes of a code block are neither a text nor a list. -/
  | blockIgnored (tag : String)
  /-- A code block with so many bytes of text is wrapped. -/
  | blockWrapped (tag : String) (bytes : Nat)
  /-- All code blocks with a class token are wrapped. -/
  | blocksDone (count : Nat) (languageClass : String)
  /-- A stage of a pipeline has run. -/
  | stageDone (stage : String) (changed : Nat)
  /-- Settings were read from a file. -/
  | settingsLoaded (path : String)
  deriving DecidableEq

namespace Event

/-- The level of an event. -/
def level : Event → Level
  | propertyDropped _ => .warn
  | blockIgnored _ => .warn
  | blockWrapped .. => .debug
  | blocksDone .. => .debug
  | stageDone .. => .info
  | settingsLoaded _ => .info

/-- The part of the program that reports an event, by which events can be selected. -/
def origin : Event → String
  | propertyDropped _ => "prewrap_tree::properties"
  | blockIgnored _ => "prewrap_transform::target"
  | blockWrapped .. => "prewrap_transform::wrapper"
  | blocksDone .. => "prewrap_transform::wrapper"
  | stageDone .. => "prewrap_transform::pipeline"
  | settingsLoaded _ => "prewrap::commands::wrap"

/-- The names of the fields of an event, the words of its line first. -/
def fields : Event → List String
  | propertyDropped _ => ["message", "property"]
  | blockIgnored _ => ["message", "tag"]
  | blockWrapped .. => ["message", "tag", "bytes"]
  | blocksDone .. => ["message", "wrapped", "class"]
  | stageDone .. => ["message", "stage", "rewritten"]
  | settingsLoaded _ => ["message", "path"]

/-- The line of text of an event, without its level. -/
def text : Event → String
  | propertyDropped name => "Dropping property with unsupported value property=" ++ name
  | blockIgnored tag => "Ignoring code block with non-list className property tag=" ++ tag
  | blockWrapped tag bytes =>
    "Wrapping code block tag=" ++ tag ++ " bytes=" ++ toString bytes
  | blocksDone count languageClass =>
    "Code block wrapping finished wrapped=" ++ toString count ++ " class=" ++ languageClass
  | stageDone stage changed =>
    "Pipeline stage complete stage=" ++ Text.quoted stage ++ " rewritten=" ++
      toString changed
  | settingsLoaded path => "Loaded configuration path=" ++ path

/-- The line of an event, with its level. -/
def line (e : Event) : String :=
  e.level.name ++ " " ++ e.text

end Event

/-- The outcome of an activity that reports events and can fail. -/
structure Logged (ε α : Type) where
  /-- What was reported, in order. -/
  events : List Event
  /-- The result or the failure. -/
  result : Except ε α

namespace Logged

variable {ε ε' α β : Type}

/-- Failure without a report. -/
def fail (e : ε) : Logged ε α :=
  ⟨[], .error e⟩

/-- A report on its own. -/
def report (events : List Event) : Logged ε Unit :=
  ⟨events, .ok ()⟩

/-- A result without a report. -/
def ofExcept (r : Except ε α) : Logged ε α :=
  ⟨[], r⟩

/-- Goes on with a result, if there is one. -/
def andThen (x : Logged ε α) (f : α → Logged ε β) : Logged ε β :=
  match x.result with
  | .error e => ⟨x.events, .error e⟩
  | .ok a => ⟨x.events ++ (f a).events, (f a).result⟩

instance : Monad (Logged ε) where
  pure a := ⟨[], .ok a⟩
  bind := andThen

/-- Changes the failure. -/
def mapError (f : ε → ε') (x : Logged ε α) : Logged ε' α :=
  ⟨x.events, x.result.mapError f⟩

@[simp] theorem result_pure (a : α) : (pure a : Logged ε α).result = .ok a :=
  rfl

@[simp] theorem result_fail (e : ε) : (fail e : Logged ε α).result = .error e :=
  rfl

@[simp] theorem result_ofExcept (r : Except ε α) : (ofExcept r).result = r :=
  rfl

@[simp] theorem result_report (events : List Event) :
    (report events : Logged ε Unit).result = .ok () :=
  rfl

/-- A result without a report is passed on as it is. -/
@[simp] theorem pure_bind (a : α) (f : α → Logged ε β) : (pure a >>= f) = f a :=
  rfl

/-- The result of two activities in a row does not depend on what they report. -/
theorem result_bind (x : Logged ε α) (f : α → Logged ε β) :
    (x >>= f).result = x.result.bind fun a => (f a).result := by
  change (andThen x f).result = _
  rw [andThen]
  cases x.result <;> rfl

end Logged

end FencedCode
