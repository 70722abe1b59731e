/-
# ExprLang.Settings — settings from environment variables

Three variables set the limits of the language and one turns debugging on. A
limit that is not set, or set to white space only, has its default; otherwise it
has to be the text of a positive integer. The limits are read in a fixed order
and the first bad one is reported.
-/
import ExprLang.Decimal

namespace ExprLang

set_option autoImplicit false

/-- Nesting of expressions and blocks that is allowed by default. -/
def defaultNesting : Int := 100

/-- Nesting of calls that is allowed by default. -/
def defaultCallDepth : Int := 64

/-- Nesting of nodes under evaluation that is allowed by default. -/
def defaultEvalDepth : Int := 300

/-- The limits that can be set. -/
inductive LimitName where
  | nesting
  | callDepth
  | evalDepth
  deriving DecidableEq, Repr

namespace LimitName

/-- The variable that sets a limit. -/
def variableName : LimitName → String
  | .nesting => "PRATT_MAX_NESTING"
  | .callDepth => "PRATT_MAX_CALL_DEPTH"
  | .evalDepth => "PRATT_MAX_EVAL_DEPTH"

/-- The limit where the variable is not set. -/
def default : LimitName → Int
  | .nesting => defaultNesting
  | .callDepth => defaultCallDepth
  | .evalDepth => defaultEvalDepth

end LimitName

/-- The settings of a run. -/
structure Settings where
  debug : Bool
  maxNesting : Int
  maxCallDepth : Int
  maxEvalDepth : Int
  deriving DecidableEq, Repr

/-- Why settings are refused. -/
inductive SettingsError where
  | notAnInteger (limit : LimitName) (text : String)
  | notPositive (limit : LimitName) (value : Int)
  deriving DecidableEq, Repr

def SettingsError.message : SettingsError → String
  | .notAnInteger limit text => limit.variableName ++ " must be an integer, got '" ++ text ++ "'"
  | .notPositive limit value => limit.variableName ++ " must be positive, got " ++ toString value

namespace Settings

/-- The settings where no variable is set. -/
def standard : Settings := ⟨false, defaultNesting, defaultCallDepth, defaultEvalDepth⟩

/-- The variables of an environment. -/
abbrev Variables := String → Option String

/-- Read one limit. -/
def readLimit (environment : Variables) (limit : LimitName) : Except SettingsError Int :=
  match environment limit.variableName with
  | none => .ok limit.default
  | some text =>
    if Text.isBlankText text then .ok limit.default
    else
      match Decimal.read? text with
      | none => .error (.notAnInteger limit text)
      | some value => if 0 < value then .ok value else .error (.notPositive limit value)

/-- The variable that turns debugging on, unless it is empty. -/
def debugVariable : String := "PRATTDEBUG"

/-- Read the settings. -/
def load (environment : Variables) : Except SettingsError Settings := do
  let maxNesting ← readLimit environment .nesting
  let maxCallDepth ← readLimit environment .callDepth
  let maxEvalDepth ← readLimit environment .evalDepth
  let debug := (environment debugVariable).any fun text => !text.isEmpty
  return ⟨debug, maxNesting, maxCallDepth, maxEvalDepth⟩

end Settings

end ExprLang
