import EntityQuery.Text.Letters

/-!
# Log settings

How much is logged, and in which form, as the environment asks for it.
-/

namespace EntityQuery.Log

/-- The variables of an environment that are set. -/
abbrev Environment := String → Option String

/-- The variable that turns debugging on. -/
def debugVariable : String := "ODATA_DEBUG"

/-- The variable that sets the level. -/
def levelVariable : String := "ODATA_LOG_LEVEL"

/-- The variable that sets the form of the lines. -/
def formatVariable : String := "ODATA_LOG_FORMAT"

/-- The targets whose level is set. -/
def targets : List String := ["odata_kit", "odata_filter", "odata_value", "odata_entity"]

/-- The word of a list that a variable holds, whatever its case. -/
def wordOf? (env : Environment) (variableName : String) (words : List String) : Option String :=
  (env variableName).bind fun v => words.find? fun w => w.toList == Text.lower v.toList

/-- Whether debugging is on. -/
def isDebug (env : Environment) : Bool :=
  (wordOf? env debugVariable ["true", "1", "yes"]).isSome

/-- The level: the one asked for, or else `debug` when debugging is on, or else `warn`. -/
def level (env : Environment) : String :=
  (wordOf? env levelVariable ["trace", "debug", "info", "warn", "error"]).getD
    (if isDebug env then "debug" else "warn")

/-- The form of the lines: the one asked for, or else `json`. -/
def format (env : Environment) : String :=
  (wordOf? env formatVariable ["pretty", "compact"]).getD "json"

/-- The directive that sets a level for every target. -/
def directive (level : String) : String :=
  ",".intercalate (targets.map fun t => t ++ "=" ++ level)

/-- An environment with one variable set. -/
def withVariable (env : Environment) (name value : String) : Environment :=
  fun n => if n = name then some value else env n

/-- The environment after debugging was asked for. -/
def askDebug (env : Environment) : Environment :=
  withVariable env debugVariable "true"

/-- The environment after a level was asked for. -/
def askLevel (env : Environment) (level : String) : Environment :=
  withVariable env levelVariable level

end EntityQuery.Log
