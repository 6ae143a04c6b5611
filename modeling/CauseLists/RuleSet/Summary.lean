-- Rule sets and registries as people read them.
import CauseLists.RuleSet.Registry

namespace CauseLists

/-- Lines, each with a break behind it. -/
def inLines (lines : List String) : String := String.join (lines.map (fun l => l ++ "\n"))

/-- One rule on a line of its own. -/
def Rule.line (r : Rule) : String := "    " ++ Text.padRight 24 r.label ++ " " ++ r.path.text

/-- A rule set in full. -/
def RuleSet.describe (s : RuleSet) : String :=
  let strict :=
    if s.hasStrictSection then
      ["  strict:"] ++ s.strictRules.map Rule.line ++
        (if s.schema.isSome then ["    (plus JSON schema)"] else [])
    else []
  inLines ([s.listType.name, "  anchors: " ++ ", ".intercalate (s.anchors.map FieldPath.text),
    "  basic:"] ++ s.baseRules.map Rule.line ++ strict)

/-- A rule set on one line. -/
def RuleSet.summary (s : RuleSet) : String :=
  let anchors := ",".intercalate (s.anchors.map FieldPath.text)
  let strict :=
    if s.hasStrictSection then "+" ++ toString s.strictRules.length else "none"
  "  " ++ Text.padRight 48 s.listType.name ++ " anchors=" ++ Text.padRight 40 anchors ++
    " rules=" ++ Text.padRight 3 (toString (s.ruleCount .basic)) ++ " strict=" ++ strict

/-- A registry with one line for each rule set. -/
def Registry.summary (r : Registry) : String :=
  inLines ((toString r.ruleSets.length ++ " list type(s)") :: r.ruleSets.map RuleSet.summary)

end CauseLists
