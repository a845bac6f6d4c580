import DocContract.Failure
import DocContract.Pattern
import DocContract.Settings

/-!
# Valid settings

Options that would make a run meaningless are refused before it. The first defect in a fixed order
is the one that is reported.
-/

namespace DocContract

namespace Settings

/-- The first defect of the settings. -/
def defect? (s : Settings) : Option SettingsError :=
  if s.maxTagDepth? = some 0 then some .zeroDepth
  else if s.parallel.maxConcurrency? = some 0 then some .zeroConcurrency
  else if (Pattern.ofText? s.tests.flowFilePattern).isNone then
    some (.badFlowPattern s.tests.flowFilePattern)
  else none

/-- The settings themselves, unless they have a defect. -/
def validated (s : Settings) : Except Failure Settings :=
  match s.defect? with
  | some cause => .error (.settings cause)
  | none => .ok s

end Settings

end DocContract
