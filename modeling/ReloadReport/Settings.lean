import ReloadReport.Text.Blank
import ReloadReport.Text.Numeral

/-!
# Settings

What a reload can be told to do differently, and how the environment tells it.
-/

namespace ReloadReport

structure Settings where
  remapGenerated : Bool := true
  logTailLines : Option UInt64 := none
  deriving DecidableEq, Repr, Inhabited

namespace Settings

/-- A switch is off for four words, in any case and with any white space around, and on for all
others. -/
def isOn (value : String) : Bool :=
  (Text.trim value.toList).map Char.toLower ∉
    [['0'], ['f', 'a', 'l', 's', 'e'], ['n', 'o'], ['o', 'f', 'f']]

/-- The settings that the values of the two environment variables make. A limit that is no number
of 64 bits is not looked at. -/
def ofEnvironment (remap tail : Option String) : Settings where
  remapGenerated := remap.all isOn
  logTailLines := tail.bind fun value => Text.numeral64? (Text.trim value.toList)

example : isOn " Off\n" = false ∧ isOn "" = true ∧ isOn "00" = true := by
  decide

end Settings
end ReloadReport
