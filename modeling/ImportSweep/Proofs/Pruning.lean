import ImportSweep.Proofs.Fallible
import ImportSweep.Sweep
import ImportSweep.Tree.Build

/-!
# Pruning a file in three ways

The unused imports of a file are listed, taken out of its text, or taken out of the file itself.
The three ways load the same source, find the same imports and cut the same text
(`Sweep.cleaned_eq_ok_iff`), so they agree: the file is written when and only when the text without
the imports is a different one, and whatever fails leaves the files as they were
(`Sweep.apply_agrees`).
-/

namespace ImportSweep

open ImportSweep.Tree ImportSweep.Files ImportSweep.Parser ImportSweep.Source

/-- An import is reported when its offset has a place, with its path, its offset and its line. -/
theorem Finding.ofStatement_eq_ok_iff {source : List Char} {statement : ImportStatement}
    {finding : Finding} :
    Finding.ofStatement source statement = .ok finding ↔
      finding.path = statement.pathName ∧ statement.index = some finding.offset ∧
        ∃ position, bytePosition source finding.offset = .ok position ∧
          finding.line = lineOf source position := by
  unfold Finding.ofStatement
  split
  · next hindex => simp [hindex]
  · next offset hindex =>
    rw [bind_eq_ok_iff, hindex]
    constructor
    · rintro ⟨position, hposition, h⟩
      cases h
      exact ⟨rfl, rfl, position, hposition, rfl⟩
    · rintro ⟨hpath, hoffset, position, hposition, hline⟩
      cases hoffset
      exact ⟨position, hposition, by rw [← hpath, ← hline]; rfl⟩

namespace Sweep

/-- The unused imports of a source are those of the tree that the parser makes of it, each with its
line. -/
theorem unusedIn_eq_ok_iff {s : Sweep} {source : String} {target : Target}
    {unused : List Finding} :
    s.unusedIn source target = .ok unused ↔
      ∃ root statements, s.parser source ⟨some target.file, target.importPaths⟩ = .ok root ∧
        unusedImports s.referenceOnly root = .ok statements ∧
        statements.mapM (Finding.ofStatement source.toList) = .ok unused := by
  simp only [unusedIn, Sweep.parse, bind_eq_ok_iff, mapError_eq_ok_iff]
  constructor
  · rintro ⟨root, hroot, statements, hstatements, hunused⟩
    exact ⟨root, statements, hroot, hstatements, hunused⟩
  · rintro ⟨root, statements, hroot, hstatements, hunused⟩
    exact ⟨root, hroot, statements, hstatements, hunused⟩

variable {σ : Type} [Store σ]

/-- The imports listed are those of the source that is loaded. -/
theorem unused_eq_ok_iff {s : Sweep} {files : σ} {target : Target} {unused : List Finding} :
    s.unused files target = .ok unused ↔
      ∃ source, load files target = .ok source ∧ s.unusedIn source target = .ok unused :=
  bind_eq_ok_iff

/-- The text without imports is cut from the source that is loaded. -/
theorem cleaned_eq_ok_iff {s : Sweep} {files : σ} {target : Target} {output : String} :
    s.cleaned files target = .ok output ↔
      ∃ source unused, load files target = .ok source ∧ s.unusedIn source target = .ok unused ∧
        withoutImports source unused = .ok output := by
  rw [cleaned, bind_eq_ok_iff]
  constructor
  · rintro ⟨source, hsource, h⟩
    obtain ⟨unused, hunused, houtput⟩ := bind_eq_ok_iff.1 h
    exact ⟨source, unused, hsource, hunused, houtput⟩
  · rintro ⟨source, unused, hsource, hunused, houtput⟩
    exact ⟨source, hsource, bind_eq_ok_iff.2 ⟨unused, hunused, houtput⟩⟩

/-- An error before the write is reported, and nothing is written. -/
theorem apply_eq_of_cleaned_eq_error {s : Sweep} {files : σ} {target : Target} {e : SweepError}
    (h : s.cleaned files target = .error e) : s.apply files target = (.error e, files) := by
  unfold cleaned at h
  unfold apply
  -- The first step that fails decides both results.
  cases hsource : load files target with
  | error e' =>
    rw [hsource] at h
    cases h
    rfl
  | ok source =>
    rw [hsource] at h
    replace h : (s.unusedIn source target >>= withoutImports source) = .error e := h
    cases hunused : s.unusedIn source target with
    | error e' =>
      rw [hunused] at h
      cases h
      simp only [bind, Except.bind, hunused]
    | ok unused =>
      rw [hunused] at h
      replace h : withoutImports source unused = .error e := h
      simp only [bind, Except.bind, hunused, h]

/-- Once the text without imports is known, it is written if it is not the source. -/
theorem apply_eq_of_steps {s : Sweep} {files : σ} {target : Target} {source output : String}
    {unused : List Finding} (hsource : load files target = .ok source)
    (hunused : s.unusedIn source target = .ok unused)
    (houtput : withoutImports source unused = .ok output) :
    s.apply files target =
      if output = source then (.ok ⟨target.file, unused, false⟩, files)
      else
        match Store.write files target.file output with
        | .error cause => (.error (.unwritable target.file cause), files)
        | .ok files' => (.ok ⟨target.file, unused, true⟩, files') := by
  unfold apply
  simp only [bind, Except.bind, hsource, hunused, houtput]
  rfl

/-- After a write the path holds the text, and all other paths hold what they held. -/
theorem read_of_write [FaithfulStore σ] {files files' : σ} {path text : String}
    (h : Store.write files path text = .ok files') (other : String) :
    Store.read files' other = if other = path then .ok text else Store.read files other := by
  by_cases hother : other = path
  · rw [if_pos hother, hother]
    exact FaithfulStore.read_write_self h
  · rw [if_neg hother]
    exact FaithfulStore.read_write_of_ne h hother

/-- The three ways of pruning agree. Where there is no text without the unused imports, the file
is not pruned for the same reason. Where there is one, the imports removed are those listed, and
the file is written exactly when that text is not the source; nothing else changes, and if the
write fails, nothing does. -/
theorem apply_agrees [FaithfulStore σ] (s : Sweep) (files : σ) (target : Target) :
    (∀ e, s.cleaned files target = .error e → s.apply files target = (.error e, files)) ∧
    (∀ output, s.cleaned files target = .ok output →
      ∃ source unused, load files target = .ok source ∧ s.unused files target = .ok unused ∧
        ((output = source ∧ s.apply files target = (.ok ⟨target.file, unused, false⟩, files)) ∨
          (output ≠ source ∧ ∃ files', Store.write files target.file output = .ok files' ∧
            s.apply files target = (.ok ⟨target.file, unused, true⟩, files') ∧
            ∀ path, Store.read files' path =
              if path = target.file then .ok output else Store.read files path) ∨
          (output ≠ source ∧ ∃ cause, Store.write files target.file output = .error cause ∧
            s.apply files target = (.error (.unwritable target.file cause), files)))) := by
  refine ⟨fun e h => apply_eq_of_cleaned_eq_error h, fun output h => ?_⟩
  obtain ⟨source, unused, hsource, hunused, houtput⟩ := cleaned_eq_ok_iff.1 h
  refine ⟨source, unused, hsource, unused_eq_ok_iff.2 ⟨source, hsource, hunused⟩, ?_⟩
  -- All steps before the write have succeeded; what remains is whether there is one, and its end.
  rw [apply_eq_of_steps hsource hunused houtput]
  by_cases hsame : output = source
  · exact .inl ⟨hsame, if_pos hsame⟩
  · rw [if_neg hsame]
    cases hwrite : Store.write files target.file output with
    | error cause => exact .inr (.inr ⟨hsame, cause, rfl, rfl⟩)
    | ok files' => exact .inr (.inl ⟨hsame, files', rfl, rfl, read_of_write hwrite⟩)

/-- A sweep whose parser sees one import at the beginning of every source. -/
def importingSweep : Sweep where
  parser _ _ :=
    .ok (Build.root
      [{ Build.importRule "b" (some (Build.root [])) false with index := some 0 }])
  referenceOnly := false

/-- Files of which one begins with an import. -/
def importingFiles : TextMap where
  content path := .ok (if path = "a.less" then "@import 'b';\np" else "q")
  refusal _ := none
  directories := []
  listing _ := .ok []

/-- The import is taken out of the file that begins with it, and another file stays as it is. -/
theorem apply_agrees_importingFiles :
    ∃ files', importingSweep.apply importingFiles ⟨none, "a.less", []⟩ =
        (.ok ⟨"a.less", [⟨"b", 0, 1⟩], true⟩, files') ∧
      Store.read files' "a.less" = .ok "p" ∧ Store.read files' "c.less" = .ok "q" := by
  have hcleaned : importingSweep.cleaned importingFiles ⟨none, "a.less", []⟩ = .ok "p" :=
    toOption_eq_some_iff.1 (by decide +kernel)
  obtain ⟨source, unused, hsource, hunused, houtcome⟩ :=
    (apply_agrees importingSweep importingFiles ⟨none, "a.less", []⟩).2 "p" hcleaned
  cases (rfl : load importingFiles ⟨none, "a.less", []⟩ = .ok "@import 'b';\np").symm.trans hsource
  have hfound : importingSweep.unused importingFiles ⟨none, "a.less", []⟩ = .ok [⟨"b", 0, 1⟩] :=
    toOption_eq_some_iff.1 (by decide +kernel)
  cases hfound.symm.trans hunused
  rcases houtcome with ⟨hsame, -⟩ | ⟨-, files', -, happly, hread⟩ | ⟨-, cause, hwrite, -⟩
  · cases (by decide : "p" ≠ "@import 'b';\np") hsame
  · exact ⟨files', happly, hread "a.less", hread "c.less"⟩
  · cases hwrite

end Sweep

end ImportSweep
