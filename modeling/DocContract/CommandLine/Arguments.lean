import DocContract.CommandLine.Option

/-!
# Reading a command line

The words of a command line are read one by one. A value that is written as a word of its own waits
until the next option or position is reached, or the end; only then is it judged. So a word that
cannot be anything is reported before a value that cannot be used, and a value that is used twice
only after the second one is complete.
-/

namespace DocContract

/-- The arguments of a run. -/
structure Arguments where
  manifest : Path
  config? : Option Path := none
  strict : Bool := false
  jobs? : Option Nat := none
  format : ReportFormat := .json
  output? : Option Path := none
  cacheDir? : Option Path := none
  verbosity : Nat := 0
  deriving DecidableEq, Repr

/-- What a command line has given so far. -/
structure GivenArguments where
  manifest? : Option Path := none
  config? : Option Path := none
  strict : Bool := false
  jobs? : Option Nat := none
  format? : Option ReportFormat := none
  output? : Option Path := none
  cacheDir? : Option Path := none
  verbosity : Nat := 0
  deriving DecidableEq, Repr

namespace GivenArguments

/-- Was a value given before? -/
def has (g : GivenArguments) : Slot → Bool
  | .manifest => g.manifest?.isSome
  | .config => g.config?.isSome
  | .jobs => g.jobs?.isSome
  | .format => g.format?.isSome
  | .output => g.output?.isSome
  | .cacheDir => g.cacheDir?.isSome

/-- A path may be anything but empty. -/
def readPath (slot : Slot) (value : Text) : Except UsageError Path :=
  if value.isEmpty then .error (.missingValue slot) else .ok value

/-- A number below 2^64 in decimal digits; a plus sign may stand in front. -/
def readNumber (slot : Slot) (value : Text) : Except UsageError Nat :=
  let digits := (Text.after? "+" value).getD value
  if !digits.isEmpty && digits.all Char.isDigit && Text.digitsValue digits < Nat.pow 2 64 then
    .ok (Text.digitsValue digits)
  else .error (.notNumber slot value)

/-- The name of a format. -/
def readFormat (slot : Slot) (value : Text) : Except UsageError ReportFormat :=
  match ReportFormat.ofName? value with
  | some format => .ok format
  | none => .error (.unknownValue slot value)

/-- What is given when a value is used. -/
def use (g : GivenArguments) (slot : Slot) (value : Text) : Except UsageError GivenArguments :=
  if g.has slot then .error (.repeated (.valued slot))
  else match slot with
    | .manifest => (readPath slot value).map fun p => { g with manifest? := some p }
    | .config => (readPath slot value).map fun p => { g with config? := some p }
    | .jobs => (readNumber slot value).map fun n => { g with jobs? := some n }
    | .format => (readFormat slot value).map fun f => { g with format? := some f }
    | .output => (readPath slot value).map fun p => { g with output? := some p }
    | .cacheDir => (readPath slot value).map fun p => { g with cacheDir? := some p }

/-- The most that verbosity counts. -/
def maxVerbosity : Nat := 255

/-- What is given when a switch is thrown. -/
def throwSwitch (g : GivenArguments) : Switch → Except CommandLineStop GivenArguments
  | .strict =>
    if g.strict then .error (.refused (.repeated (.switch .strict)))
    else .ok { g with strict := true }
  | .verbose => .ok { g with verbosity := min maxVerbosity (g.verbosity + 1) }
  | .help => .error .help
  | .version => .error .version

/-- The arguments of a run, if the manifest was given. -/
def complete (g : GivenArguments) : Except UsageError Arguments :=
  match g.manifest? with
  | none => .error .missingManifest
  | some manifest =>
    .ok {
      manifest
      config? := g.config?
      strict := g.strict
      jobs? := g.jobs?
      format := g.format?.getD .json
      output? := g.output?
      cacheDir? := g.cacheDir?
      verbosity := g.verbosity }

end GivenArguments

/-- A value that waits to be used; before its word is read there is none. -/
structure WaitingValue where
  slot : Slot
  value? : Option Text
  deriving DecidableEq, Repr

/-- The state of reading a command line. -/
structure ArgumentReader where
  given : GivenArguments := {}
  waiting? : Option WaitingValue := none
  /-- Was the manifest's position taken? -/
  positionTaken : Bool := false
  /-- Did `--` end the options? -/
  optionsEnded : Bool := false
  deriving DecidableEq, Repr

namespace ArgumentReader

/-- Refuses the command line. -/
def refuse {α : Type} (cause : UsageError) : Except CommandLineStop α := .error (.refused cause)

/-- The state after a check that can refuse the command line. -/
def give (r : ArgumentReader) (given : Except UsageError GivenArguments) :
    Except CommandLineStop ArgumentReader :=
  match given with
  | .error cause => refuse cause
  | .ok given => .ok { r with given, waiting? := none }

/-- Uses the value that waits. -/
def settle (r : ArgumentReader) : Except CommandLineStop ArgumentReader :=
  match r.waiting? with
  | none => .ok r
  | some ⟨slot, none⟩ => refuse (.missingValue slot)
  | some ⟨slot, some value⟩ => r.give (r.given.use slot value)

/-- An option that takes a value: an attached one is used at once, otherwise the next word is. -/
def takeValue (r : ArgumentReader) (slot : Slot) (attached? : Option Text) :
    Except CommandLineStop ArgumentReader := do
  let r ← r.settle
  match attached? with
  | some value => r.give (r.given.use slot value)
  | none => return { r with waiting? := some ⟨slot, none⟩ }

/-- An option without a value. -/
def throwSwitch (r : ArgumentReader) (switch : Switch) : Except CommandLineStop ArgumentReader := do
  let r ← r.settle
  let given ← r.given.throwSwitch switch
  return { r with given }

/-- A word that is given by its position. -/
def position (r : ArgumentReader) (word : Text) : Except CommandLineStop ArgumentReader := do
  if r.positionTaken then refuse (.unknownArgument word)
  else
    let r ← r.settle
    return { r with waiting? := some ⟨.manifest, some word⟩, positionTaken := true }

/-- A long option without its dashes; a value may be attached with `=`. -/
def long (r : ArgumentReader) (body : Text) : Except CommandLineStop ArgumentReader :=
  let (name, attached?) :=
    match Text.cut? "=" body with
    | some (name, value) => (name, some value)
    | none => (body, none)
  match CommandOption.ofName? name, attached? with
  | none, _ => refuse (.unknownArgument ("--" ++ name))
  | some (.valued slot), attached? => r.takeValue slot attached?
  | some (.switch switch), some value => refuse (.unexpectedValue switch value)
  | some (.switch switch), none => r.throwSwitch switch

/-- One-letter options after one dash. What follows the letter of an option with a value is its
value, without a `=` in front. -/
def cluster (r : ArgumentReader) : Text → Except CommandLineStop ArgumentReader
  | [] => .ok r
  | c :: rest =>
    match CommandOption.ofLetter? c with
    | none => refuse (.unknownArgument ['-', c])
    | some (.switch switch) =>
      match r.throwSwitch switch with
      | .error stop => .error stop
      | .ok r => cluster r rest
    | some (.valued slot) =>
      r.takeValue slot (if rest.isEmpty then none else some ((Text.after? "=" rest).getD rest))

/-- A word that is no option: the value that an option waits for, or a position. -/
def plain (r : ArgumentReader) (word : Text) : Except CommandLineStop ArgumentReader :=
  match r.waiting? with
  | some ⟨slot, none⟩ => .ok { r with waiting? := some ⟨slot, some word⟩ }
  | _ => r.position word

/-- Reads one word. A lone dash is no option. -/
def step (r : ArgumentReader) (word : Text) : Except CommandLineStop ArgumentReader :=
  if r.optionsEnded then r.position word
  else match word with
    | ['-', '-'] => .ok { r with optionsEnded := true }
    | '-' :: '-' :: body => r.long body
    | '-' :: c :: rest => r.cluster (c :: rest)
    | _ => r.plain word

/-- Reads the words that follow. -/
def run (r : ArgumentReader) : List Text → Except CommandLineStop ArgumentReader
  | [] => r.settle
  | word :: words =>
    match r.step word with
    | .error stop => .error stop
    | .ok r => run r words

end ArgumentReader

/-- Reads the words of a command line, without the name of the program. -/
def Arguments.parse (words : List Text) : Except CommandLineStop Arguments :=
  match ArgumentReader.run {} words with
  | .error stop => .error stop
  | .ok r =>
    match r.given.complete with
    | .error cause => .error (.refused cause)
    | .ok a => .ok a

end DocContract
