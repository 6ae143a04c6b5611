-- The catalogue: the rule sets that come with the library, in the order of their files' names.
-- Most lists have one shape, from court houses by rooms, sessions and sittings to hearings.
import CauseLists.RuleSet.Registry

namespace CauseLists.Catalogue

/-! ## Places of a list -/

/-- A court house. -/
def courtHouse (inner : String) : String := "courtLists[*].courtHouse." ++ inner

/-- A room of a court house. -/
def courtRoom (inner : String) : String := courtHouse ("courtRoom[*]." ++ inner)

/-- A session in a room. -/
def session (inner : String) : String := courtRoom ("session[*]." ++ inner)

/-- A sitting of a session. -/
def sitting (inner : String) : String := session ("sittings[*]." ++ inner)

/-- A hearing of a sitting. -/
def hearing (inner : String) : String := sitting ("hearing[*]." ++ inner)

/-- A case that is heard. -/
def hearingCase (inner : String) : String := hearing ("case[*]." ++ inner)

/-- A party to a hearing. -/
def party (inner : String) : String := hearing ("party[*]." ++ inner)

/-- An offence that a hearing is about. -/
def offence (inner : String) : String := hearing ("offence[*]." ++ inner)

/-! ## Rules -/

/-- Each of some nodes is required. -/
def required (paths : List String) : List WrittenRule := paths.map (fun p => ⟨p, .required⟩)

/-- Each of some nodes is an instant. -/
def dateTimes (paths : List String) : List WrittenRule := paths.map (fun p => ⟨p, .dateTime⟩)

/-- A node that is a match of an expression. -/
def pattern (path source : String) : WrittenRule := ⟨path, .pattern source⟩

/-- The publication date is there and is an instant. -/
def publicationDate : List WrittenRule :=
  required ["document.publicationDate"] ++ dateTimes ["document.publicationDate"]

/-- The start of every sitting is there and is an instant. -/
def sittingStart : List WrittenRule :=
  required [sitting "sittingStart"] ++ dateTimes [sitting "sittingStart"]

/-- The detail of a reporting restriction is required wherever there is one. -/
def restrictionDetail (place : String → String) : WrittenRule :=
  ⟨place "reportingRestrictionDetail",
    .requiredWhen "reportingRestriction" (some (.bool true))⟩

/-! ## Rule sets -/

/-- A rule set that is evaluated from the root and has no section for strict mode. -/
def plain (listType : ListType) (rules : List WrittenRule) : WrittenRuleSet :=
  ⟨listType, [], rules, none⟩

def civilDaily : WrittenRuleSet :=
  plain ⟨"CIVIL_DAILY_CAUSE_LIST", by decide⟩ (publicationDate ++
    required ["venue.venueName", "venue.venueContact.venueTelephone", "courtLists",
      courtHouse "courtHouseName", courtRoom "courtRoomName", session "judiciary"] ++
    sittingStart ++ dateTimes [sitting "sittingEnd"] ++
    required [hearingCase "caseNumber", hearingCase "caseName"])

def protectionDaily : WrittenRuleSet :=
  plain ⟨"COP_DAILY_CAUSE_LIST", by decide⟩ (publicationDate ++
    required ["venue.venueName", "courtLists", courtRoom "courtRoomName"] ++ sittingStart ++
    required [hearingCase "caseNumber", hearingCase "caseSuppressionName"])

/-- The schema of the daily list of the Crown Court. -/
def crownDailySchema : Json :=
  let object (required : List String) : List (String × Json) :=
    [("type", .string "object"), ("required", .array (required.map .string))]
  .ofMembers (object ["document", "venue", "courtLists"] ++ [("properties", .ofMembers [
    ("document", .ofMembers (object ["publicationDate"])),
    ("venue", .ofMembers (object ["venueName", "venueAddress"])),
    ("courtLists", .ofMembers [("type", .string "array"), ("minItems", .ofInt 1),
      ("items", .ofMembers (object ["courtHouse"]))])])])

def crownDaily : WrittenRuleSet where
  listType := ⟨"CROWN_DAILY_LIST", by decide⟩
  anchors := []
  rules :=
    required ["document"] ++ publicationDate ++
    required ["venue", "venue.venueName", "venue.venueAddress", "courtLists",
      "courtLists[*].courtHouse", courtHouse "courtHouseName", courtHouse "courtRoom",
      courtRoom "courtRoomName", courtRoom "session", session "sittings"] ++
    sittingStart ++ dateTimes [sitting "sittingEnd"] ++
    required [sitting "hearing", hearing "hearingType", hearing "case", hearingCase "caseNumber"]
  strict := some {
    rules :=
      required ["venue.venueAddress.postCode"] ++
      [⟨"venue.venueAddress.postCode", .postcode⟩,
        ⟨hearingCase "caseNumber", .fixedLength 10⟩,
        pattern (hearingCase "caseNumber") "[A-Z][0-9]\x7b9\x7d",
        restrictionDetail hearingCase]
    schema := some crownDailySchema }

def crownFirm : WrittenRuleSet :=
  plain ⟨"CROWN_FIRM_LIST", by decide⟩ (publicationDate ++
    required ["venue.venueName", "courtLists", courtHouse "courtHouseName",
      courtHouse "courtRoom", courtRoom "courtRoomName"] ++
    sittingStart ++ required [hearing "hearingType", hearingCase "caseNumber"])

def crownWarned : WrittenRuleSet :=
  plain ⟨"CROWN_WARNED_LIST", by decide⟩ (publicationDate ++
    required ["venue.venueName", "courtLists", sitting "hearing", hearing "hearingType",
      hearingCase "caseNumber"] ++
    [⟨hearingCase "fixedDate", .date⟩])

def careStandardsWeekly : WrittenRuleSet :=
  plain ⟨"CST_WEEKLY_HEARING_LIST", by decide⟩ (required ["$", "[*].date"] ++
    [pattern "[*].date" "[0-9]\x7b2\x7d/[0-9]\x7b2\x7d/[0-9]\x7b4\x7d"] ++
    required ["[*].caseName", "[*].hearingLength", "[*].hearingType", "[*].venue"])

def employmentDaily : WrittenRuleSet :=
  plain ⟨"ET_DAILY_LIST", by decide⟩ (publicationDate ++
    required ["venue.venueName", "courtLists", courtRoom "courtRoomName"] ++ sittingStart ++
    required [hearing "hearingType", hearingCase "caseNumber"] ++
    [pattern (hearingCase "caseNumber") "[0-9]\x7b7\x7d/[0-9]\x7b4\x7d"])

def familyDaily : WrittenRuleSet :=
  plain ⟨"FAMILY_DAILY_CAUSE_LIST", by decide⟩ (publicationDate ++
    required ["venue.venueName", "courtLists", courtHouse "courtHouseName",
      courtRoom "courtRoomName"] ++
    sittingStart ++ required [hearingCase "caseNumber"] ++
    [pattern (hearingCase "caseSequenceIndicator") "[0-9]+ of [0-9]+"])

def immigrationDaily : WrittenRuleSet :=
  plain ⟨"IAC_DAILY_LIST", by decide⟩ (publicationDate ++
    required ["venue.venueName", "courtLists", "courtLists[*].courtListName",
      courtRoom "courtRoomName"] ++
    sittingStart ++ required [hearingCase "caseNumber"])

def londonAdministrativeDaily : WrittenRuleSet where
  listType := ⟨"LONDON_ADMINISTRATIVE_COURT_DAILY_CAUSE_LIST", by decide⟩
  anchors := ["londonAdministrativeCourt", "planningCourt"]
  rules := required ["[*].time", "[*].venue", "[*].caseNumber", "[*].caseName",
    "[*].hearingType"]
  strict := none

def magistratesPublic : WrittenRuleSet :=
  plain ⟨"MAGISTRATES_PUBLIC_LIST", by decide⟩ (publicationDate ++
    required ["venue.venueName", "courtLists", courtHouse "courtHouseName",
      courtRoom "courtRoomName"] ++
    dateTimes [sitting "sittingStart"] ++ required [hearingCase "caseNumber"])

def magistratesStandard : WrittenRuleSet :=
  plain ⟨"MAGISTRATES_STANDARD_LIST", by decide⟩ (publicationDate ++
    required ["venue.venueName", "courtLists", courtHouse "courtHouseName",
      courtRoom "courtRoomName"] ++
    sittingStart ++
    required [hearingCase "caseNumber", hearing "party", party "partyRole"] ++
    [⟨party "individualDetails.dateOfBirth", .date⟩] ++ required [offence "offenceTitle"])

def primaryHealth : WrittenRuleSet :=
  plain ⟨"PRIMARY_HEALTH_LIST", by decide⟩ (required ["$", "[*].hearingDate", "[*].caseName",
    "[*].hearingLength", "[*].hearingType", "[*].venue"])

/-- The edition for the press holds the full details of defendants. -/
def singleJusticePress : WrittenRuleSet where
  listType := ⟨"SJP_PRESS_LIST", by decide⟩
  anchors := []
  rules :=
    publicationDate ++
    required ["courtLists", sitting "hearing", hearing "party", party "partyRole"] ++
    [⟨party "individualDetails.dateOfBirth", .date⟩] ++
    required [hearing "offence", offence "offenceTitle"] ++ [restrictionDetail offence]
  strict := some {
    rules :=
      [⟨party "individualDetails.address.postCode", .postcode⟩] ++
      required [hearingCase "caseUrn"] ++
      [pattern (hearingCase "caseUrn") "[0-9]\x7b2\x7d[A-Z]\x7b2\x7d[0-9]\x7b7\x7d"]
    schema := none }

/-- The edition for the public holds initials in place of forenames. -/
def singleJusticePublic : WrittenRuleSet :=
  plain ⟨"SJP_PUBLIC_LIST", by decide⟩ (publicationDate ++
    required ["courtLists", sitting "hearing", hearing "party", party "partyRole"] ++
    [⟨party "individualDetails.individualForenames", .initialOrEmpty⟩] ++
    required [hearing "offence", offence "offenceTitle"])

def socialSecurityDaily : WrittenRuleSet :=
  plain ⟨"SSCS_DAILY_LIST", by decide⟩ (publicationDate ++
    required ["venue.venueName", "courtLists", courtHouse "courtHouseName"] ++ sittingStart ++
    required [party "partyRole", hearingCase "caseNumber"])

/-- Every rule set of the catalogue with the name of its file. -/
def all : List (String × WrittenRuleSet) := [
  ("civil_daily_cause_list.yaml", civilDaily),
  ("cop_daily_cause_list.yaml", protectionDaily),
  ("crown_daily_list.yaml", crownDaily),
  ("crown_firm_list.yaml", crownFirm),
  ("crown_warned_list.yaml", crownWarned),
  ("cst_weekly_hearing_list.yaml", careStandardsWeekly),
  ("et_daily_list.yaml", employmentDaily),
  ("family_daily_cause_list.yaml", familyDaily),
  ("iac_daily_list.yaml", immigrationDaily),
  ("london_administrative_court_daily_cause_list.yaml", londonAdministrativeDaily),
  ("magistrates_public_list.yaml", magistratesPublic),
  ("magistrates_standard_list.yaml", magistratesStandard),
  ("primary_health_list.yaml", primaryHealth),
  ("sjp_press_list.yaml", singleJusticePress),
  ("sjp_public_list.yaml", singleJusticePublic),
  ("sscs_daily_list.yaml", socialSecurityDaily)]

/-- Compiles the rule sets of the catalogue in order. -/
def compileAll (l : Libraries) :
    List (String × WrittenRuleSet) → Except RegistryError (List RuleSet)
  | [] => .ok []
  | (origin, written) :: rest => do
    let s ← (written.compile l).mapError (fun fault => .invalid ⟨origin, fault⟩)
    let more ← compileAll l rest
    return s :: more

end CauseLists.Catalogue

namespace CauseLists

/-- The registry of the catalogue. -/
def Registry.builtIn (l : Libraries) : Except RegistryError Registry := do
  Registry.ofRuleSets (← Catalogue.compileAll l Catalogue.all)

end CauseLists
