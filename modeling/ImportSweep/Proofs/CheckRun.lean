import ImportSweep.Proofs.Batch
import ImportSweep.Proofs.Detection

/-!
# Checking instead of pruning

A check reports what a run that prunes would report, and it changes nothing. It does not take any
lines out, so this needs that taking them out succeeds (`exists_withoutImports`) and makes a
difference when there are unused imports (`withoutImports_eq_self_iff`). Then the two agree on each
file (`pruneFile_check`), and so on all of them (`run_check_predicts`).
-/

namespace ImportSweep

open ImportSweep.Tree ImportSweep.Files ImportSweep.Parser

namespace Source

/-! ## A statement takes something away -/

/-- The offset leads to a character of the source that is no line end. -/
def PointsAtText (source : List Char) (offset : Nat) : Prop :=
  ∃ before c after, source = before ++ c :: after ∧ isLineEnd c = false ∧
    bytePosition source offset = .ok (byteLength before)

theorem length_keepFrom_le {removed : Nat → Prop} [DecidablePred removed] (position : Nat)
    (text : List Char) : (keepFrom removed position text).length ≤ text.length := by
  fun_induction keepFrom removed position text with
  | case1 => exact Nat.le_refl _
  | case2 position c rest hremoved ih => exact Nat.le_succ_of_le ih
  | case3 position c rest hremoved ih => exact Nat.succ_le_succ ih

/-- When a character goes, what is left is another text. -/
theorem keepFrom_ne_self {removed : Nat → Prop} [DecidablePred removed] {before after : List Char}
    {c : Char} (h : removed (byteLength before)) :
    keepFrom removed 0 (before ++ c :: after) ≠ before ++ c :: after := by
  -- It is shorter: the character is missing, and nothing is added before it or after it.
  have hparts : keepFrom removed 0 (before ++ c :: after) =
      keepFrom removed 0 before ++ keepFrom removed (byteLength before + c.utf8Size) after := by
    rw [keepFrom_append, Nat.zero_add, keepFrom, if_pos h]
  have hlength : (keepFrom removed 0 before).length +
      (keepFrom removed (byteLength before + c.utf8Size) after).length ≤
        before.length + after.length :=
    Nat.add_le_add (length_keepFrom_le 0 before) (length_keepFrom_le _ after)
  intro hsame
  have hsame := congrArg List.length (hparts.symm.trans hsame)
  rw [List.length_append, List.length_append, List.length_cons] at hsame
  omega

/-- The span of a statement covers its first character, if that is no line end. -/
theorem covers_statementSpan_self {before after : List Char} {c : Char} {offset : Nat}
    (hc : isLineEnd c = false)
    (h : bytePosition (before ++ c :: after) offset = .ok (byteLength before)) :
    (statementSpan (before ++ c :: after) (byteLength before)).Covers (byteLength before) := by
  -- The text of the line goes on behind the place, as the character there is no line end.
  have hstop : byteLength before <
      byteLength before + byteLength ((c :: after).takeWhile fun d => !isLineEnd d) := by
    have hpos := c.utf8Size_pos
    simp only [List.takeWhile_cons, hc, Bool.not_false, if_true, byteLength]
    omega
  constructor
  · -- The line begins at or before the statement.
    obtain ⟨division, -, hplace, -, hspan⟩ := exists_division h
    have hstart := division.start_line_le
    rw [hspan, ← hplace, PlacedLine.span]
    split
    · exact hstart
    · exact Nat.le_refl _
  · simp only [statementSpan, dropBytes_append]
    split
    · exact Nat.lt_add_right _ hstop
    · exact hstop

/-- A removal with a statement that begins at text changes the source. -/
theorem removeLines_ne_self {source output : String} {offsets : List Nat} {offset : Nat}
    (hoffset : offset ∈ offsets) (htext : PointsAtText source.toList offset)
    (h : removeLines source offsets = .ok output) : output ≠ source := by
  obtain ⟨before, c, after, hsource, hc, hposition⟩ := htext
  -- The character at which the statement begins is one of those that go.
  have hremoved : Removed source.toList offsets (byteLength before) := by
    refine removed_iff.2 ⟨offset, hoffset, byteLength before, hposition, ?_⟩
    rw [hsource] at hposition ⊢
    exact covers_statementSpan_self hc hposition
  obtain ⟨-, rfl⟩ := removeLines_eq_ok_iff.1 h
  intro hsame
  have hkept := congrArg String.toList hsame
  rw [String.toList_ofList] at hkept
  rw [hsource] at hkept hremoved
  exact keepFrom_ne_self hremoved hkept

end Source

open ImportSweep.Source

/-! ## The unused imports of a source -/

/-- Where the parser sees an import, there is text in the source. -/
def SeesText (parser : SourceParser) : Prop :=
  ∀ source context root, parser source context = .ok root →
    ∀ statement ∈ imports root, ∀ offset, statement.index = some offset →
      PointsAtText source.toList offset

namespace Sweep

variable {s : Sweep} {source : String} {target : Target} {unused : List Finding}

/-- An unused import is one that the parser sees, and its offset lies in the source. -/
theorem exists_statement_of_unusedIn (h : s.unusedIn source target = .ok unused)
    {finding : Finding} (hfinding : finding ∈ unused) :
    ∃ root, s.parser source ⟨some target.file, target.importPaths⟩ = .ok root ∧
      ∃ statement ∈ imports root, statement.index = some finding.offset ∧
        ∃ position, bytePosition source.toList finding.offset = .ok position := by
  obtain ⟨root, statements, hroot, hstatements, hunused⟩ := unusedIn_eq_ok_iff.1 h
  obtain ⟨statement, hstatement, hof⟩ := (mem_of_mapM_eq_ok hunused).1 hfinding
  obtain ⟨himport, -⟩ := (mem_unusedImports_iff hstatements).1 hstatement
  obtain ⟨-, hindex, position, hposition, -⟩ := Finding.ofStatement_eq_ok_iff.1 hof
  exact ⟨root, hroot, statement, himport, hindex, position, hposition⟩

/-- The unused imports of a source can be taken out of it. -/
theorem exists_withoutImports (h : s.unusedIn source target = .ok unused) :
    ∃ output, withoutImports source unused = .ok output := by
  have hoffsets : ∀ offset ∈ unused.map (·.offset), ∃ position,
      bytePosition source.toList offset = .ok position := by
    intro offset hoffset
    obtain ⟨finding, hfinding, rfl⟩ := List.mem_map.1 hoffset
    obtain ⟨-, -, -, -, -, hposition⟩ := exists_statement_of_unusedIn h hfinding
    exact hposition
  exact ⟨_, mapError_eq_ok_iff.2 (removeLines_eq_ok_iff.2 ⟨hoffsets, rfl⟩)⟩

/-- Taking the unused imports out of a source makes a difference when there are any. -/
theorem withoutImports_eq_self_iff (hparser : SeesText s.parser)
    (h : s.unusedIn source target = .ok unused) {output : String}
    (houtput : withoutImports source unused = .ok output) : output = source ↔ unused = [] := by
  constructor
  · intro hsame
    by_contra hne
    obtain ⟨finding, hfinding⟩ := List.exists_mem_of_ne_nil unused hne
    obtain ⟨root, hroot, statement, hstatement, hindex, -⟩ :=
      exists_statement_of_unusedIn h hfinding
    have htext := hparser _ _ root hroot statement hstatement finding.offset hindex
    exact removeLines_ne_self (List.mem_map_of_mem hfinding) htext
      (mapError_eq_ok_iff.1 houtput) hsame
  · rintro rfl
    exact Except.ok.inj (houtput.symm.trans (withoutImports_nil source))

variable {σ : Type} [Store σ]

/-- Where the unused imports cannot be found, there is no text without them. -/
theorem cleaned_eq_error {files : σ} {e : SweepError} (h : s.unused files target = .error e) :
    s.cleaned files target = .error e := by
  unfold Sweep.unused at h
  unfold cleaned
  cases hsource : load files target with
  | error e' =>
    rw [hsource] at h
    cases h
    rfl
  | ok source =>
    rw [hsource] at h
    replace h : s.unusedIn source target = .error e := h
    simp only [bind, Except.bind, h]

end Sweep

namespace Command

variable {σ : Type} [Store σ]

/-! ## Checks -/

/-- A check reports on a file what pruning it would report. -/
theorem pruneFile_check {s : Sweep} (hparser : SeesText s.parser) {files : σ} {file : String}
    (hwritable : ∀ source, Store.read files file = .ok source →
      ∀ text, ∃ files', Store.write files file text = .ok files')
    (dirs : List String) :
    (pruneFile s true dirs files file).1 = (pruneFile s false dirs files file).1 := by
  simp only [pruneFile, if_true, Bool.false_eq_true, if_false]
  -- Both look for the unused imports first. What pruning does besides cannot fail any more.
  cases hunused : s.unused files ⟨none, file, dirs⟩ with
  | error e =>
    rw [Sweep.apply_eq_of_cleaned_eq_error (Sweep.cleaned_eq_error hunused)]
    rfl
  | ok unused =>
    obtain ⟨source, hsource, hunusedIn⟩ := Sweep.unused_eq_ok_iff.1 hunused
    obtain ⟨output, houtput⟩ := Sweep.exists_withoutImports hunusedIn
    have hsame := Sweep.withoutImports_eq_self_iff hparser hunusedIn houtput
    rw [Sweep.apply_eq_of_steps hsource hunusedIn houtput]
    by_cases hnil : unused = []
    · rw [if_pos (hsame.2 hnil), hnil]
      rfl
    · obtain ⟨files', hwrite⟩ := hwritable source (load_eq_ok_iff.1 hsource) output
      rw [if_neg (mt hsame.1 hnil), hwrite]
      simp [Except.map, FileResult.ofOutcome, FileResult.ofUnused, hnil]

/-- A check leaves all files as they are. -/
theorem pruneFiles_snd_of_check (w : Wording) (s : Sweep) {o : PruneOptions} (h : o.check = true)
    (files : σ) (paths : List String) : (pruneFiles w s o files paths).2 = files := by
  induction paths with
  | nil => rfl
  | cons file rest ih =>
    have hfile : pruneFile s o.check o.importDirs files file =
        ((pruneFile s true o.importDirs files file).1, files) := by
      rw [h]
      rfl
    rw [pruneFiles, hfile]
    cases (pruneFile s true o.importDirs files file).1 with
    | ok report => exact ih
    | error e =>
      simp only
      split
      · exact ih
      · rfl

/-- Pruning a file changes what is read there when it reports a change, and only then. -/
theorem read_pruneFile_ne_iff [PlacedStore σ] {s : Sweep} {dirs : List String} {files : σ}
    {file : String} {report : FileResult}
    (h : (pruneFile s false dirs files file).1 = .ok report) :
    Store.read (pruneFile s false dirs files file).2 file ≠ Store.read files file ↔
      report.changed = true := by
  rcases pruneFile_cases s false dirs files file with
    ⟨hfiles, hunchanged⟩ | ⟨source, output, _, hread, hne, hwrite, hok, hchanged, -⟩
  · simp [hfiles, hunchanged rfl report h]
  · cases h.symm.trans hok
    rw [PlacedStore.read_write hread hwrite rfl, hread]
    simp [hchanged, hne]

/-- A run that prunes reports changes exactly when it leaves one of its files changed. -/
theorem exists_changed_reportOn_iff [PlacedStore σ] {w : Wording} {s : Sweep} {o : PruneOptions}
    {files final : σ} {paths : List String} (hwrite : o.check = false)
    (h : EndsAlone s o files final paths) :
    (∃ report ∈ paths.map (fun path =>
        reportOn w path (pruneFile s false o.importDirs files path).1), report.changed = true) ↔
      ∃ path ∈ paths, Store.read final path ≠ Store.read files path := by
  simp only [List.mem_map, exists_exists_and_eq_and]
  refine exists_congr fun path => and_congr_right fun hpath => ?_
  -- At the end the file is as if pruned by itself, so one file has to be looked at.
  rw [h.pruned path hpath, hwrite]
  cases hresult : (pruneFile s false o.importDirs files path).1 with
  | error e => simp [reportOn, FileResult.ofError, pruneFile_snd_of_error hresult]
  | ok report => exact (read_pruneFile_ne_iff hresult).symm

/-- A run that gets through its files does not stop at errors, or meets none. -/
theorem settle_eq_ok {w : Wording} {keepGoing : Bool}
    {outcomes : List (String × Except SweepError FileResult)} {reports : List FileResult}
    (h : settle w keepGoing outcomes = .ok reports) :
    keepGoing = true ∨ ∀ outcome ∈ outcomes, ∃ report, outcome.2 = .ok report := by
  fun_induction settle w keepGoing outcomes generalizing reports with
  | case1 => exact .inr nofun
  | case2 file report rest ih =>
    cases hrest : settle w keepGoing rest with
    | error failure =>
      rw [hrest] at h
      cases h
    | ok others =>
      refine (ih hrest).imp_right fun hall => List.forall_mem_cons.2 ⟨⟨report, rfl⟩, hall⟩
  | case3 file e rest hkeep ih => exact .inl hkeep
  | case4 file e rest hkeep => cases h

section Prediction

variable {w : Wording} {s : Sweep} {o : PruneOptions} {files : σ} {paths : List String}

/-- The files can be written to if they can be read. -/
def Writable (files : σ) (paths : List String) : Prop :=
  ∀ path ∈ paths, ∀ source, Store.read files path = .ok source →
    ∀ text, ∃ files', Store.write files path text = .ok files'

/-- By itself each file is reported on by a check as by a run that prunes. -/
theorem attempts_check (hparser : SeesText s.parser) (hwritable : Writable files paths) :
    attempts s { o with check := true } files paths =
      attempts s { o with check := false } files paths := by
  refine List.map_congr_left fun path hpath => ?_
  rw [pruneFile_check hparser (hwritable path hpath)]

/-- With the same outcome a check fails if the run that prunes fails, and also if that run leaves a
file changed. -/
theorem code_ofSettled_check_iff [PlacedStore σ] {final : σ}
    (hends : EndsAlone s { o with check := false } files final
      (passed o.keepGoing (attempts s { o with check := false } files paths))) :
    let outcome := settle w o.keepGoing (attempts s { o with check := false } files paths)
    (Finish.ofSettled w { o with check := true } outcome).code ≠ 0 ↔
      (Finish.ofSettled w { o with check := false } outcome).code ≠ 0 ∨
        ∃ path ∈ paths, Store.read final path ≠ Store.read files path := by
  intro outcome
  cases houtcome : outcome with
  | error failure => simp [Finish.ofSettled, Finish.failure]
  | ok reports =>
    -- All files were reported on, so the end of each is known.
    obtain ⟨hreports, hpassed⟩ := settle_attempts w (o := { o with check := false })
      (settle_eq_ok houtcome)
    rw [hpassed] at hends
    cases hreports.symm.trans houtcome
    have hchanged := exists_changed_reportOn_iff (w := w) (o := { o with check := false }) rfl hends
    refine (exitCode_ne_zero_iff _ true).trans (or_congr ?_ ((and_iff_right rfl).trans hchanged))
    refine Iff.symm ((exitCode_ne_zero_iff _ false).trans (or_iff_left ?_))
    rintro ⟨⟨⟩, -⟩

end Prediction

/-- A check predicts a run that prunes, if the imports that the parser sees begin at text, the paths
lead to different files, and files that can be read can be written to. The check changes nothing.
Both runs fail to list the files for the same reason, or stop at the same file with the same error,
or have the same reports. So the check fails exactly when the run that prunes fails or leaves a file
changed. -/
theorem run_check_predicts [PlacedStore σ] (w : Wording) (parser : SourceParser)
    (o : PruneOptions) (files : σ) (hparser : SeesText parser)
    (hdistinct : ∀ paths, listFiles files o = .ok paths → Distinct files paths)
    (hwritable : ∀ paths, listFiles files o = .ok paths → Writable files paths) :
    let s : Sweep := ⟨parser, o.referenceOnly⟩
    let checking : PruneOptions := { o with check := true }
    let writing : PruneOptions := { o with check := false }
    let checked := run w parser files (.prune checking)
    let written := run w parser files (.prune writing)
    checked.2 = files ∧
    (∀ chain, listFiles files o = .error chain →
      checked.1 = .failure chain ∧ written = (.failure chain, files)) ∧
    ∀ paths, listFiles files o = .ok paths →
      ∃ outcome, (pruneFiles w s checking files paths).1 = outcome ∧
        (pruneFiles w s writing files paths).1 = outcome ∧
        checked.1 = .ofSettled w checking outcome ∧ written.1 = .ofSettled w writing outcome ∧
        (checked.1.code ≠ 0 ↔ written.1.code ≠ 0 ∨
          ∃ path ∈ paths, Store.read written.2 path ≠ Store.read files path) := by
  intro s checking writing checked written
  cases hlist : listFiles files o with
  | error chain =>
    have hchecked : checked = (.failure chain, files) :=
      runPrune_of_listFiles_error (o := checking) hlist
    have hwritten : written = (.failure chain, files) :=
      runPrune_of_listFiles_error (o := writing) hlist
    refine ⟨congrArg Prod.snd hchecked, fun chain' hchain => ?_, nofun⟩
    cases hchain
    exact ⟨congrArg Prod.fst hchecked, hwritten⟩
  | ok paths =>
    have hchecked : checked = _ := runPrune_of_listFiles (o := checking) hlist
    have hwritten : written = _ := runPrune_of_listFiles (o := writing) hlist
    have hfiles := pruneFiles_snd_of_check w s (o := checking) rfl files paths
    refine ⟨(congrArg Prod.snd hchecked).trans hfiles, nofun, fun paths' hpaths => ?_⟩
    cases hpaths
    -- Each file by itself is reported on in the same way, so both runs are settled alike.
    obtain ⟨hcheck, -⟩ := pruneFiles_alone w s checking (hdistinct paths hlist)
    obtain ⟨hwrite, hends⟩ := pruneFiles_alone w s writing (hdistinct paths hlist)
    rw [attempts_check hparser (hwritable paths hlist)] at hcheck
    have hfirst := congrArg Prod.fst hchecked
    have hsecond := congrArg Prod.fst hwritten
    rw [hcheck] at hfirst
    rw [hwrite] at hsecond
    refine ⟨_, hcheck, hwrite, hfirst, hsecond, ?_⟩
    rw [hfirst, hsecond, hwritten]
    exact code_ofSettled_check_iff hends

/-- The parser sees an import only where a source begins with `@`. -/
theorem seesText_leadingParser : SeesText leadingParser := by
  intro source context root hroot statement hstatement offset hindex
  rw [leadingParser] at hroot
  split at hroot
  · next hat =>
    obtain ⟨rest, hsource⟩ : ∃ rest, source.toList = '@' :: rest := List.head?_eq_some_iff.1 hat
    cases hroot
    cases List.mem_singleton.1 hstatement
    cases hindex
    rw [hsource]
    exact ⟨[], '@', rest, rfl, rfl, rfl⟩
  · split at hroot
    · cases hroot
    · cases hroot
      cases hstatement

/-- Files of which the first begins with an import, the second cannot be used, and the third holds
nothing to remove. -/
def looseSheets : TextMap where
  content path :=
    if path = "b.less" then .error .notPermitted
    else .ok (if path = "a.less" then "@import 'b';\np" else "q")
  refusal path := if path = "b.less" then some .notPermitted else none
  directories := ["src"]
  listing _ := .ok ["a.less", "b.less", "c.less"]

/-- The check on the three files changes none of them and fails, as the run that prunes leaves the
first of them changed. -/
theorem run_check_predicts_looseSheets :
    let checked :=
      run .full leadingParser looseSheets (.prune { pruneSheets true with check := true })
    checked.2 = looseSheets ∧ checked.1.code ≠ 0 ∧
      ∃ outcome, (pruneFiles .full ⟨leadingParser, false⟩
          { pruneSheets true with check := true } looseSheets ["a.less", "b.less", "c.less"]).1 =
            outcome ∧
        (pruneFiles .full ⟨leadingParser, false⟩ (pruneSheets true) looseSheets
          ["a.less", "b.less", "c.less"]).1 = outcome := by
  have hlist : listFiles looseSheets (pruneSheets true) = .ok ["a.less", "b.less", "c.less"] := rfl
  have hdistinct : ∀ paths, listFiles looseSheets (pruneSheets true) = .ok paths →
      Distinct looseSheets paths := by
    intro paths hpaths
    cases hlist.symm.trans hpaths
    show (["a.less", "b.less", "c.less"].map id).Nodup
    decide
  have hwritable : ∀ paths, listFiles looseSheets (pruneSheets true) = .ok paths →
      Writable looseSheets paths := by
    intro paths _ path _ source hread text
    by_cases hpath : path = "b.less"
    · simp [Store.read, looseSheets, hpath] at hread
    · have hrefusal : looseSheets.refusal path = none := if_neg hpath
      cases hwrite : looseSheets.write path text with
      | ok files' => exact ⟨files', hwrite⟩
      | error e =>
        rw [TextMap.write, hrefusal] at hwrite
        cases hwrite
  obtain ⟨hfiles, -, hruns⟩ := run_check_predicts .full leadingParser (pruneSheets true)
    looseSheets seesText_leadingParser hdistinct hwritable
  obtain ⟨outcome, hchecked, hwritten, -, -, hcode⟩ := hruns _ hlist
  refine ⟨hfiles, hcode.2 (.inr ⟨"a.less", by simp, ?_⟩), outcome, hchecked, hwritten⟩
  have hread : Store.read (run .full leadingParser looseSheets (.prune (pruneSheets true))).2
      "a.less" = .ok "p" :=
    toOption_eq_some_iff.1 (by decide +kernel)
  refine fun hsame => absurd (hread.symm.trans hsame) ?_
  simp [Store.read, looseSheets]

end Command

end ImportSweep
