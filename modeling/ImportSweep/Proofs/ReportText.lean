import ImportSweep.Proofs.JsonText
import ImportSweep.Report.Json

/-!
# A report as JSON text tells all of it

`Report.ofJson?` reads a report from its JSON, where a member that is absent stands for what is
empty. Reading undoes writing, so the text of a report determines the report
(`render_json_determines_report`), as far as its numbers fit the machine words in which offsets,
lines and counts are kept.
-/

namespace ImportSweep

open ImportSweep.Names

/-! ## Reading a report -/

namespace Json

/-- The first member of a name. -/
def member? (name : String) : Json → Option Json
  | .object members => (members.find? (·.1 = name)).map (·.2)
  | _ => none

/-- The text of a value that is one. -/
def text? : Json → Option String
  | .text s => some s
  | _ => none

/-- The truth value of a value that is one. -/
def flag? : Json → Option Bool
  | .flag b => some b
  | _ => none

/-- The whole number of a value that is one. -/
def nat? : Json → Option Nat
  | .number (.natural n) => some n
  | _ => none

/-- The items of an array, each read in the same way. -/
def items? {α : Type} (read : Json → Option α) : Json → Option (List α)
  | .array items => items.mapM read
  | _ => none

/-- A member that may be absent. -/
def optional? {α : Type} (name : String) (read : Json → Option α) (j : Json) :
    Option (Option α) :=
  match j.member? name with
  | none => some none
  | some value => (read value).map some

end Json

/-- Reads a set of names, which stand in strictly increasing order. -/
def NameSet.ofJson? (j : Json) : Option NameSet := do
  let names ← j.items? Json.text?
  if h : names.Pairwise (· < ·) then some ⟨names, h⟩ else none

/-- Reads an unused import. -/
def Finding.ofJson? (j : Json) : Option Finding := do
  let path ← (← j.member? "path").text?
  let offset ← (← j.member? "offset").nat?
  let line ← (← j.member? "line").nat?
  return ⟨path, offset, line⟩

/-- Reads the names of a file. -/
def Vocabulary.ofJson? (j : Json) : Option Vocabulary := do
  let exported ← NameSet.ofJson? (← j.member? "exportable_names")
  let used ← NameSet.ofJson? (← j.member? "importable_names")
  return ⟨exported, used⟩

/-- Reads what is told about a file. -/
def FileResult.ofJson? (j : Json) : Option FileResult := do
  let file ← (← j.member? "file").text?
  let changed ← (← j.member? "changed").flag?
  let unused ← j.optional? "unused_imports" (Json.items? Finding.ofJson?)
  let names ← j.optional? "names" Vocabulary.ofJson?
  let error ← j.optional? "error" Json.text?
  return ⟨file, unused.getD [], changed, names, error⟩

/-- Reads a report. -/
def Report.ofJson? (j : Json) : Option Report := do
  let checkOnly ← (← (← j.member? "summary").member? "check_only").flag?
  let files ← (← j.member? "files").items? FileResult.ofJson?
  return ⟨files, checkOnly⟩

/-- The counts in the summary of a report. -/
structure Summary where
  /-- Files. -/
  files : Nat
  /-- Files that were changed, or would be. -/
  changed : Nat
  /-- Unused imports of all files. -/
  unused : Nat
  /-- Files that could not be processed. -/
  failed : Nat
  deriving DecidableEq, Repr

/-- Reads the counts of a report. -/
def Summary.ofJson? (j : Json) : Option Summary := do
  let summary ← j.member? "summary"
  let files ← (← summary.member? "files").nat?
  let changed ← (← summary.member? "changed").nat?
  let unused ← (← summary.member? "unused_imports").nat?
  let failed ← (← summary.member? "failed").nat?
  return ⟨files, changed, unused, failed⟩

/-! ## Reading undoes writing -/

@[simp] theorem Json.member?_object (name : String) (members : List (String × Json)) :
    (Json.object members).member? name = (members.find? (·.1 = name)).map (·.2) :=
  rfl

theorem Json.items?_array_map {α : Type} {read : Json → Option α} {write : α → Json}
    (h : ∀ a, read (write a) = some a) (items : List α) :
    (Json.array (items.map write)).items? read = some items := by
  simp only [Json.items?]
  induction items with
  | nil => rfl
  | cons a items ih => simp [h, ih]

theorem NameSet.ofJson?_toJson (names : NameSet) : NameSet.ofJson? names.toJson = some names := by
  have hnames : names.toJson.items? Json.text? = some names.names :=
    Json.items?_array_map (fun name : String => rfl) names.names
  rw [NameSet.ofJson?, hnames, Option.bind_eq_bind, Option.bind_some]
  exact dif_pos names.sorted

theorem Finding.ofJson?_toJson (i : Finding) : Finding.ofJson? i.toJson = some i := by
  simp [Finding.ofJson?, Finding.toJson, Json.text?, Json.nat?, Json.ofNat]

theorem Vocabulary.ofJson?_toJson (names : Vocabulary) :
    Vocabulary.ofJson? names.toJson = some names := by
  simp [Vocabulary.ofJson?, Vocabulary.toJson, NameSet.ofJson?_toJson]

/-- Each of the three members that may be absent is there or not, which makes eight forms. -/
theorem FileResult.ofJson?_toJson (r : FileResult) : FileResult.ofJson? r.toJson = some r := by
  obtain ⟨file, unused, changed, names, error⟩ := r
  -- an empty list is left out and read as absent
  have hunused := Json.items?_array_map Finding.ofJson?_toJson unused
  cases unused <;> cases names <;> cases error <;>
    simp_all [FileResult.ofJson?, FileResult.toJson, Json.text?, Json.flag?, Json.optional?,
      Vocabulary.ofJson?_toJson]

theorem Report.ofJson?_toJson (r : Report) : Report.ofJson? r.toJson = some r := by
  have hfiles := Json.items?_array_map FileResult.ofJson?_toJson r.files
  simp [Report.ofJson?, Report.toJson, Report.summaryJson, Json.flag?, hfiles]

theorem Report.unusedTotal_eq (r : Report) :
    r.unusedTotal = (r.files.flatMap (·.unused)).length := by
  have hsum (files : List FileResult) (n : Nat) :
      files.foldl (fun total file => total + file.unused.length) n
        = n + (files.flatMap (·.unused)).length := by
    induction files generalizing n with
    | nil => rfl
    | cons file files ih => rw [List.foldl_cons, ih, List.flatMap_cons, List.length_append]; omega
  rw [Report.unusedTotal, hsum, Nat.zero_add]

theorem Summary.ofJson?_toJson (r : Report) :
    Summary.ofJson? r.toJson = some
      ⟨r.files.length, (r.files.filter (·.changed)).length, (r.files.flatMap (·.unused)).length,
        (r.files.filter (·.error.isSome)).length⟩ := by
  simp [Summary.ofJson?, Report.toJson, Report.summaryJson, Json.ofNat, Json.nat?,
    Report.unusedTotal_eq, Report.changedFiles, Report.failedFiles, List.countP_eq_length_filter]

/-! ## The text -/

/-- The offsets, lines and counts of a report are machine words. -/
structure Report.Fits (r : Report) : Prop where
  files : r.files.length ≤ Json.Numeral.largest
  unused : r.unusedTotal ≤ Json.Numeral.largest
  places : ∀ file ∈ r.files, ∀ i ∈ file.unused,
    i.offset ≤ Json.Numeral.largest ∧ i.line ≤ Json.Numeral.largest

open Json (Readable)

variable {levels : Nat}

theorem NameSet.readable_toJson (names : NameSet) : Readable (levels + 1) names.toJson := by
  simp [NameSet.toJson]

theorem Finding.readable_toJson {i : Finding}
    (h : i.offset ≤ Json.Numeral.largest ∧ i.line ≤ Json.Numeral.largest) :
    Readable (levels + 1) i.toJson := by
  simp [Finding.toJson, Json.ofNat, h]

theorem Vocabulary.readable_toJson (names : Vocabulary) :
    Readable (levels + 2) names.toJson := by
  simp [Vocabulary.toJson, NameSet.readable_toJson]

theorem FileResult.readable_toJson {r : FileResult}
    (h : ∀ i ∈ r.unused, i.offset ≤ Json.Numeral.largest ∧ i.line ≤ Json.Numeral.largest) :
    Readable (levels + 3) r.toJson := by
  refine .object fun member hmember => ?_
  simp only [List.mem_append, List.mem_cons, List.not_mem_nil, or_false, Option.mem_toList,
    Option.map_eq_some_iff, or_assoc] at hmember
  obtain rfl | rfl | hmember | ⟨names, -, rfl⟩ | ⟨error, -, rfl⟩ := hmember
  · exact .text r.file
  · exact .flag r.changed
  · split at hmember
    · cases hmember
    · obtain rfl := List.mem_singleton.1 hmember
      refine .array fun item hitem => ?_
      obtain ⟨i, hi, rfl⟩ := List.mem_map.1 hitem
      exact Finding.readable_toJson (h i hi)
  · exact names.readable_toJson
  · exact .text error

theorem Report.readable_toJson {r : Report} (h : r.Fits) : Readable (levels + 5) r.toJson := by
  have hchanged : r.changedFiles ≤ Json.Numeral.largest :=
    Nat.le_trans List.countP_le_length h.files
  have hfailed : r.failedFiles ≤ Json.Numeral.largest :=
    Nat.le_trans List.countP_le_length h.files
  have hfiles (file : FileResult) (hfile : file ∈ r.files) : Readable (levels + 3) file.toJson :=
    FileResult.readable_toJson (h.places file hfile)
  simpa [Report.toJson, Report.summaryJson, Json.ofNat, h.files, hchanged, h.unused, hfailed]
    using hfiles

theorem Report.parse_render_json {r : Report} (h : r.Fits) :
    Json.parse Json.nestingLimit (r.render .json) = .ok r.toJson := by
  have hreadable : Readable Json.nestingLimit r.toJson := Report.readable_toJson h
  have hall := Json.parse_write .pretty hreadable ['\n'] (by simp)
  rwa [String.ofList_append] at hall

/-- The JSON text of a report is one document and an end of line. Read back, it gives the report
with its files in order, and the counts of its files. So no other report has this text. -/
theorem render_json_determines_report (r : Report) (h : r.Fits) :
    (∃ document value,
      r.render .json = document ++ "\n" ∧
      Json.parse Json.nestingLimit document = .ok value ∧
      Json.parse Json.nestingLimit (r.render .json) = .ok value ∧
      Report.ofJson? value = some r ∧
      Summary.ofJson? value = some
        ⟨r.files.length, (r.files.filter (·.changed)).length, (r.files.flatMap (·.unused)).length,
          (r.files.filter (·.error.isSome)).length⟩) ∧
    ∀ other : Report, other.Fits → other.render .json = r.render .json → other = r := by
  have hdocument : Json.parse Json.nestingLimit r.toJson.prettyText = .ok r.toJson :=
    Json.parse_prettyText (Report.readable_toJson h)
  have hrender := Report.parse_render_json h
  refine ⟨⟨r.toJson.prettyText, r.toJson, rfl, hdocument, hrender, Report.ofJson?_toJson r,
    Summary.ofJson?_toJson r⟩, fun other hother htext => ?_⟩
  -- both texts are read as one value, and each report is what that value tells
  have hvalue : other.toJson = r.toJson := by
    have hparse := Report.parse_render_json hother
    rw [htext, hrender] at hparse
    exact (Except.ok.inj hparse).symm
  have hread := Report.ofJson?_toJson other
  rw [hvalue, Report.ofJson?_toJson r] at hread
  exact (Option.some.inj hread).symm

/-- A report on a file with unused imports, whose paths need escapes and one of whose offsets is the
largest, on a file with names, one of whose sets is empty, and on a file that failed. -/
def mixedReport : Report :=
  ⟨[⟨"a.less", [⟨"say \"x\".less", 0, 1⟩, ⟨"b\x01\\\n.less", 18446744073709551615, 3⟩], true, none,
      none⟩,
    .ofNames "b.less" ⟨.ofList ["y", "x"], .empty⟩,
    .ofError "c.less" "no such file"], true⟩

theorem render_json_determines_report_mixedReport :
    mixedReport.Fits ∧
    (∃ document value,
      mixedReport.render .json = document ++ "\n" ∧
      Json.parse Json.nestingLimit document = .ok value ∧
      Json.parse Json.nestingLimit (mixedReport.render .json) = .ok value ∧
      Report.ofJson? value = some mixedReport ∧ Summary.ofJson? value = some ⟨3, 1, 2, 1⟩) ∧
    ∀ other : Report, other.Fits → other.render .json = mixedReport.render .json →
      other = mixedReport := by
  have hfits : mixedReport.Fits := by
    constructor
    · decide
    · decide
    · intro file hfile i hi
      simp only [mixedReport, List.mem_cons, List.not_mem_nil, or_false] at hfile
      obtain rfl | rfl | rfl := hfile
      · simp only [List.mem_cons, List.not_mem_nil, or_false] at hi
        obtain rfl | rfl := hi <;> decide
      · cases hi
      · cases hi
  exact ⟨hfits, render_json_determines_report mixedReport hfits⟩

end ImportSweep
