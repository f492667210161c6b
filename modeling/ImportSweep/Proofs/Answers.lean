import ImportSweep.Parser.Answer
import ImportSweep.Proofs.Utf8
import ImportSweep.Proofs.ValueErrors

/-!
# Trees and reports inside answers

An answer holds a tree or a report of a syntax error as members of an object. This module says what
an answer is read as in terms of the values that stand under each name, so that neither the order of
the members nor the members of other names occur.

* A tree is decoded inside an answer as it is alone, with the same node or the same error
  (`readAnswer_rooted`). Faults of its text become faults of the answer.
* A report wins over a tree (`readAnswer_eq_badSource_iff`). What counts as a report is said by
  `IsReport`, which covers both ways to write one.
-/

namespace ImportSweep.Parser

open ImportSweep.Tree
open ImportSweep.Json (Draft Key Fault Break Symbol)

/-! ## Fields -/

section Fields

variable {α σ : Type}

/-- Members with names that can be read. -/
def named (members : List (String × Draft)) : List (Key × Draft) :=
  members.map fun member => (.ok member.1, member.2)

theorem whole_of_named {members : List (String × Draft)}
    (h : ∀ member ∈ named members, member.2.Whole) : ∀ member ∈ members, member.2.Whole :=
  fun member hmember => h (.ok member.1, member.2) (List.mem_map_of_mem hmember)

/-- What a field holds after it has met these drafts: it takes one at most. -/
def Meets (reader : Draft → Except DecodeError α) (before : Met α) (drafts : List Draft)
    (after : Met α) : Prop :=
  (drafts = [] ∧ after = before) ∨
    before = none ∧ ∃ draft a, drafts = [draft] ∧ reader draft = .ok a ∧ after = some a

variable {reader : Draft → Except DecodeError α} {before after : Met α}

@[simp] theorem meets_nil_iff : Meets reader before [] after ↔ after = before := by
  simp [Meets]

theorem meets_cons_iff {draft : Draft} {drafts : List Draft} :
    Meets reader before (draft :: drafts) after ↔
      before = none ∧ ∃ a, reader draft = .ok a ∧ Meets reader (some a) drafts after := by
  cases before <;> simp [Meets, and_left_comm]

theorem meet_eq_ok_iff {name : String} {value : Except DecodeError α} :
    meet name before value = .ok after ↔ before = none ∧ ∃ a, value = .ok a ∧ some a = after := by
  cases before <;> simp [meet, map_eq_ok_iff]

/-- An object that is read has names that can be read, and ends. -/
theorem exists_named_of_readObject {step : σ → String → Draft → Except DecodeError σ} {f g : σ}
    {members : List (Key × Draft)} {ending : Option Break}
    (h : readObject step f members ending = .ok g) :
    ending = none ∧ ∃ fields, members = named fields := by
  induction members generalizing f with
  | nil =>
    cases ending with
    | none => exact ⟨rfl, [], rfl⟩
    | some why => cases h
  | cons member members ih =>
    obtain ⟨key, draft⟩ := member
    simp only [readObject, orMalformed, bind_eq_ok_iff, mapError_eq_ok_iff] at h
    obtain ⟨name, rfl, mid, -, h⟩ := h
    obtain ⟨hending, fields, rfl⟩ := ih h
    exact ⟨hending, (name, draft) :: fields, rfl⟩

/-- Reading an object is what its steps make of the members in turn. -/
theorem readObject_eq_ok_iff {step : σ → String → Draft → Except DecodeError σ}
    {relates : σ → List (String × Draft) → σ → Prop} (hnil : ∀ f g, relates f [] g ↔ g = f)
    (hcons : ∀ f name draft rest g, draft.Whole →
      (relates f ((name, draft) :: rest) g ↔
        ∃ mid, step f name draft = .ok mid ∧ relates mid rest g))
    {members : List (String × Draft)} (hwhole : ∀ member ∈ members, member.2.Whole) {f g : σ} :
    readObject step f (named members) none = .ok g ↔ relates f members g := by
  induction members generalizing f with
  | nil => simp [named, readObject, hnil, eq_comm]
  | cons member members ih =>
    obtain ⟨name, draft⟩ := member
    obtain ⟨hdraft, hrest⟩ := List.forall_mem_cons.1 hwhole
    rw [hcons f name draft members g hdraft]
    show (step f name draft >>= fun mid => readObject step mid (named members) none) = .ok g ↔ _
    simp only [bind_eq_ok_iff, ih hrest]

end Fields

/-! ## Reports -/

/-- The draft of a text. -/
def textDraft (text : String) : Draft :=
  .text (.ok text)

/-- The draft of a number. -/
def numberDraft (n : Nat) : Draft :=
  .number (.ok (.natural n))

/-- The values of a field that may be absent or `null`. -/
def Gives {α : Type} (draw : α → Draft) (drafts : List Draft) : Option α → Prop
  | none => drafts = [] ∨ drafts = [.null]
  | some a => drafts = [draw a]

/-- What reports a syntax error: an object whose members of known names are of the right types, each
there at most once, or an array of their values in order. -/
inductive IsReport : Draft → SyntaxFault → Prop where
  /-- An object; its order and its other members do not count. -/
  | object {fields : List (String × Draft)} {report : SyntaxFault}
      (message : valuesOf "message" fields = [textDraft report.message])
      (filename : Gives textDraft (valuesOf "filename" fields) report.filename)
      (line : Gives numberDraft (valuesOf "line" fields) report.line)
      (column : Gives numberDraft (valuesOf "column" fields) report.column) :
      IsReport (.object (named fields) none) report
  /-- An array; what is left out at its end is absent. -/
  | array {rest : List Draft} {report : SyntaxFault} (length : rest.length ≤ 3)
      (filename : Gives textDraft rest[0]?.toList report.filename)
      (line : Gives numberDraft rest[1]?.toList report.line)
      (column : Gives numberDraft rest[2]?.toList report.column) :
      IsReport (.array (textDraft report.message :: rest) none) report

/-- The reader takes `null` as absent, and else what is drawn. -/
def Reads {α : Type} (reader : Draft → Except DecodeError (Option α)) (draw : α → Draft) : Prop :=
  ∀ draft value, reader draft = .ok value ↔
    (draft = .null ∧ value = none) ∨ ∃ a, draft = draw a ∧ value = some a

theorem textOfDraft_eq_ok_iff {draft : Draft} {s : String} :
    textOfDraft draft = .ok s ↔ draft = textDraft s := by
  constructor
  · intro h
    cases draft with
    | text x =>
      cases x with
      | error fault => cases h
      | ok t =>
        cases h
        rfl
    | number x => cases x <;> cases h
    | _ => cases h
  · rintro rfl
    rfl

theorem optionalDraft_eq_ok_iff {α : Type} {reader : Draft → Except DecodeError α} {draft : Draft}
    {value : Option α} :
    optionalDraft reader draft = .ok value ↔
      (draft = .null ∧ value = none) ∨
        draft ≠ .null ∧ ∃ a, reader draft = .ok a ∧ value = some a := by
  cases draft with
  | null => simp [optionalDraft, eq_comm]
  | _ => simp [optionalDraft, map_eq_ok_iff, eq_comm (a := value)]

theorem reads_optionalDraft_textOfDraft : Reads (optionalDraft textOfDraft) textDraft := by
  intro draft value
  rw [optionalDraft_eq_ok_iff]
  simp only [textOfDraft_eq_ok_iff]
  refine or_congr_right (and_iff_right_of_imp ?_)
  rintro ⟨s, rfl, -⟩
  exact nofun

theorem reads_offsetOfDraft : Reads offsetOfDraft numberDraft := by
  intro draft value
  constructor
  · intro h
    cases draft with
    | null =>
      cases h
      exact .inl ⟨rfl, rfl⟩
    | number x =>
      cases x with
      | error fault => cases h
      | ok number =>
        cases number with
        | natural n =>
          cases h
          exact .inr ⟨n, rfl, rfl⟩
        | _ => cases h
    | text x => cases x <;> cases h
    | _ => cases h
  · rintro (⟨rfl, rfl⟩ | ⟨n, rfl, rfl⟩)
    · rfl
    · rfl

/-- A field that may be absent is given by the values that its reader meets. -/
theorem exists_meets_iff {α : Type} {reader : Draft → Except DecodeError (Option α)}
    {draw : α → Draft} (h : Reads reader draw) {drafts : List Draft} {field : Option α} :
    (∃ held, Meets reader none drafts held ∧ held.join = field) ↔ Gives draw drafts field := by
  constructor
  · rintro ⟨held, ⟨rfl, rfl⟩ | ⟨-, draft, value, rfl, hread, rfl⟩, rfl⟩
    · exact .inl rfl
    · obtain ⟨rfl, rfl⟩ | ⟨a, rfl, rfl⟩ := (h draft value).1 hread
      · exact .inr rfl
      · rfl
  · intro hgives
    cases field with
    | none =>
      obtain rfl | rfl := hgives
      · exact ⟨none, .inl ⟨rfl, rfl⟩, rfl⟩
      · exact ⟨some none, .inr ⟨rfl, .null, none, rfl, (h _ _).2 (.inl ⟨rfl, rfl⟩), rfl⟩, rfl⟩
    | some a =>
      obtain rfl : drafts = [draw a] := hgives
      exact ⟨some (some a), .inr ⟨rfl, draw a, some a, rfl, (h _ _).2 (.inr ⟨a, rfl, rfl⟩), rfl⟩,
        rfl⟩

/-- The message is there exactly once. -/
theorem meets_textOfDraft_iff {drafts : List Draft} {message : String} :
    Meets textOfDraft none drafts (some message) ↔ drafts = [textDraft message] := by
  simp [Meets, textOfDraft_eq_ok_iff]

namespace FaultFields

/-- The fields after these drafts were met for each. -/
def Relates (f : FaultFields) (message filename line column : List Draft)
    (g : FaultFields) : Prop :=
  Meets textOfDraft f.message message g.message ∧
    Meets (optionalDraft textOfDraft) f.filename filename g.filename ∧
    Meets offsetOfDraft f.line line g.line ∧ Meets offsetOfDraft f.column column g.column

/-- The fields after these members were met. -/
def RelatesMembers (f : FaultFields) (members : List (String × Draft)) (g : FaultFields) : Prop :=
  f.Relates (valuesOf "message" members) (valuesOf "filename" members) (valuesOf "line" members)
    (valuesOf "column" members) g

/-- One more member is met by the field of its name, if there is one. -/
theorem relates_take_iff {f g : FaultFields} {name : String} {draft : Draft} (hwhole : draft.Whole)
    {rest : List (String × Draft)} :
    f.RelatesMembers ((name, draft) :: rest) g ↔
      ∃ mid, f.take name draft = .ok mid ∧ mid.RelatesMembers rest g := by
  have hpass : orMalformed draft.pass = .ok () := mapError_eq_ok_iff.2 hwhole
  unfold take
  split
  case h_5 => simp_all [RelatesMembers, valuesOf_cons]
  all_goals
    simp only [RelatesMembers, Relates, valuesOf_cons, takeMessage, takeFilename, takeLine,
      takeColumn, String.reduceEq, if_true, if_false, meets_cons_iff, meet_eq_ok_iff,
      bind_eq_ok_iff, pure_eq_ok_iff]
    grind

/-- The members of an object are met in turn. -/
theorem readObject_take_iff {members : List (String × Draft)}
    (hwhole : ∀ member ∈ members, member.2.Whole) {f g : FaultFields} :
    readObject take f (named members) none = .ok g ↔ f.RelatesMembers members g := by
  refine readObject_eq_ok_iff (fun f g => ?_) (fun _ _ _ _ _ h => relates_take_iff h) hwhole
  cases f
  cases g
  simp [RelatesMembers, Relates, valuesOf]

/-- The items of an array are met by the fields in order. -/
theorem readArray_eq_ok_iff {items : List Draft} {ending : Option Break} {g : FaultFields} :
    readArray [takeMessage, takeFilename, takeLine, takeColumn] {} items ending = .ok g ↔
      ending = none ∧ items.length ≤ 4 ∧
        Relates {} items[0]?.toList items[1]?.toList items[2]?.toList items[3]?.toList g := by
  obtain ⟨message, filename, line, column⟩ := g
  rcases items with _ | ⟨first, _ | ⟨second, _ | ⟨third, _ | ⟨fourth, _ | ⟨fifth, rest⟩⟩⟩⟩⟩ <;>
    cases ending <;>
    simp [readArray, Relates, takeMessage, takeFilename, takeLine, takeColumn, meets_cons_iff,
      meet_eq_ok_iff, bind_eq_ok_iff] <;>
    grind

theorem report_eq_ok_iff {f : FaultFields} {missing : DecodeError} {report : SyntaxFault} :
    f.report missing = .ok report ↔
      f.message = some report.message ∧ f.filename.join = report.filename ∧
        f.line.join = report.line ∧ f.column.join = report.column := by
  obtain ⟨message, filename, line, column⟩ := report
  cases hmessage : f.message <;> simp [FaultFields.report, hmessage]

/-- The report of fields that start out empty. -/
theorem exists_relates_iff {message filename line column : List Draft} {missing : DecodeError}
    {report : SyntaxFault} :
    (∃ fields, Relates {} message filename line column fields ∧
        fields.report missing = .ok report) ↔
      message = [textDraft report.message] ∧ Gives textDraft filename report.filename ∧
        Gives numberDraft line report.line ∧ Gives numberDraft column report.column := by
  simp only [report_eq_ok_iff, ← exists_meets_iff reads_optionalDraft_textOfDraft,
    ← exists_meets_iff reads_offsetOfDraft, ← meets_textOfDraft_iff]
  constructor
  · rintro ⟨fields, ⟨hmessage, hfilename, hline, hcolumn⟩, hm, hf, hl, hc⟩
    exact ⟨hm ▸ hmessage, ⟨_, hfilename, hf⟩, ⟨_, hline, hl⟩, ⟨_, hcolumn, hc⟩⟩
  · rintro ⟨hmessage, ⟨f, hfilename, hf⟩, ⟨l, hline, hl⟩, ⟨c, hcolumn, hc⟩⟩
    exact ⟨⟨some report.message, f, l, c⟩, ⟨hmessage, hfilename, hline, hcolumn⟩, rfl, hf, hl, hc⟩

end FaultFields

/-- A whole draft is read as a report exactly when it is one. -/
theorem ofDraft_eq_ok_iff_isReport {draft : Draft} (hwhole : draft.Whole) {report : SyntaxFault} :
    SyntaxFault.ofDraft draft = .ok report ↔ IsReport draft report := by
  cases draft with
  | object members ending =>
    obtain ⟨hmembers, rfl⟩ := Json.whole_object_iff.1 hwhole
    -- the fields of both sides are those of the members that can be read
    have hfields {fields : List (String × Draft)} (hnamed : members = named fields) :
        SyntaxFault.ofDraft (.object members none) = .ok report ↔
          valuesOf "message" fields = [textDraft report.message] ∧
          Gives textDraft (valuesOf "filename" fields) report.filename ∧
          Gives numberDraft (valuesOf "line" fields) report.line ∧
          Gives numberDraft (valuesOf "column" fields) report.column := by
      have hwhole : ∀ field ∈ fields, field.2.Whole := whole_of_named (hnamed ▸ hmembers)
      simp only [SyntaxFault.ofDraft, bind_eq_ok_iff, hnamed,
        FaultFields.readObject_take_iff hwhole, FaultFields.RelatesMembers,
        FaultFields.exists_relates_iff]
    constructor
    · intro h
      obtain ⟨f, hread, -⟩ := bind_eq_ok_iff.1 h
      obtain ⟨-, fields, rfl⟩ := exists_named_of_readObject hread
      obtain ⟨hmessage, hfilename, hline, hcolumn⟩ := (hfields rfl).1 h
      exact .object hmessage hfilename hline hcolumn
    · rintro (⟨hmessage, hfilename, hline, hcolumn⟩ | _)
      exact (hfields rfl).2 ⟨hmessage, hfilename, hline, hcolumn⟩
  | array items ending =>
    obtain ⟨-, rfl⟩ := Json.whole_array_iff.1 hwhole
    cases items with
    | nil => refine iff_of_false (fun h => ?_) (fun h => ?_) <;> cases h
    | cons first rest =>
      have hread : SyntaxFault.ofDraft (.array (first :: rest) none) = .ok report ↔
          rest.length ≤ 3 ∧ first = textDraft report.message ∧
          Gives textDraft rest[0]?.toList report.filename ∧
          Gives numberDraft rest[1]?.toList report.line ∧
          Gives numberDraft rest[2]?.toList report.column := by
        show (readArray [FaultFields.takeMessage, FaultFields.takeFilename, FaultFields.takeLine,
            FaultFields.takeColumn] ({} : FaultFields) (first :: rest) none >>= fun fields =>
          fields.report (.wrongLength 0 .reportItems)) = _ ↔ _
        simp only [bind_eq_ok_iff, FaultFields.readArray_eq_ok_iff, true_and, and_assoc,
          exists_and_left, FaultFields.exists_relates_iff]
        have hlength : (first :: rest).length ≤ 4 ↔ rest.length ≤ 3 := Nat.succ_le_succ_iff
        rw [hlength]
        simp
      rw [hread]
      constructor
      · rintro ⟨hlength, rfl, hfilename, hline, hcolumn⟩
        exact .array hlength hfilename hline hcolumn
      · rintro (_ | ⟨hlength, hfilename, hline, hcolumn⟩)
        exact ⟨hlength, rfl, hfilename, hline, hcolumn⟩
  | number x | text x =>
    cases x <;> refine iff_of_false (fun h => ?_) (fun h => ?_) <;> cases h
  | _ => refine iff_of_false (fun h => ?_) (fun h => ?_) <;> cases h

/-! ## Answers -/

namespace AnswerFields

/-- The fields after these members were met. -/
def Relates (levels : Nat) (f : AnswerFields) (members : List (String × Draft))
    (g : AnswerFields) : Prop :=
  Meets (optionalDraft (Node.ofDraft levels)) f.root (valuesOf "root" members) g.root ∧
    Meets (optionalDraft SyntaxFault.ofDraft) f.error (valuesOf "error" members) g.error

theorem relates_cons_iff {levels : Nat} {f g : AnswerFields} {name : String} {draft : Draft}
    (hwhole : draft.Whole) {rest : List (String × Draft)} :
    f.Relates levels ((name, draft) :: rest) g ↔
      ∃ mid, f.take levels name draft = .ok mid ∧ mid.Relates levels rest g := by
  have hpass : orMalformed draft.pass = .ok () := mapError_eq_ok_iff.2 hwhole
  unfold take
  split
  case h_3 => simp_all [Relates, valuesOf_cons]
  all_goals
    simp only [Relates, valuesOf_cons, takeRoot, takeError, String.reduceEq, if_true, if_false,
      meets_cons_iff, meet_eq_ok_iff, bind_eq_ok_iff, pure_eq_ok_iff]
    grind

/-- The members of an answer are met in turn. -/
theorem readObject_relates_iff {levels : Nat} {members : List (String × Draft)}
    (hwhole : ∀ member ∈ members, member.2.Whole) {f g : AnswerFields} :
    readObject (take levels) f (named members) none = .ok g ↔ f.Relates levels members g := by
  refine readObject_eq_ok_iff (fun f g => ?_) (fun _ _ _ _ _ h => relates_cons_iff h) hwhole
  cases f
  cases g
  simp [Relates, valuesOf]

end AnswerFields

/-- The values of `root` do not stop an answer: there is none, or it is `null`, or a tree. -/
def RootPasses (drafts : List Draft) : Prop :=
  drafts = [] ∨ drafts = [.null] ∨
    ∃ draft j n, drafts = [draft] ∧ draft.settle (Json.nestingLimit - 1) = .ok j ∧
      Node.ofJson j = .ok n

theorem exists_meets_root_iff {drafts : List Draft} :
    (∃ held, Meets (optionalDraft (Node.ofDraft (Json.nestingLimit - 1))) none drafts held) ↔
      RootPasses drafts := by
  have hnode (draft : Draft) (n : Node) : Node.ofDraft (Json.nestingLimit - 1) draft = .ok n ↔
      ∃ j, draft.settle (Json.nestingLimit - 1) = .ok j ∧ Node.ofJson j = .ok n :=
    ofDraft_eq_ok_iff
  constructor
  · rintro ⟨held, ⟨rfl, -⟩ | ⟨-, draft, value, rfl, hread, -⟩⟩
    · exact .inl rfl
    · obtain ⟨rfl, -⟩ | ⟨-, n, hn, -⟩ := optionalDraft_eq_ok_iff.1 hread
      · exact .inr (.inl rfl)
      · obtain ⟨j, hj, hn⟩ := (hnode draft n).1 hn
        exact .inr (.inr ⟨draft, j, n, rfl, hj, hn⟩)
  · rintro (rfl | rfl | ⟨draft, j, n, rfl, hj, hn⟩)
    · exact ⟨none, .inl ⟨rfl, rfl⟩⟩
    · exact ⟨some none, .inr ⟨rfl, .null, none, rfl, rfl, rfl⟩⟩
    · have hne : draft ≠ .null := by
        rintro rfl
        cases hj
        cases hn
      have hread := optionalDraft_eq_ok_iff.2 (.inr ⟨hne, n, (hnode draft n).2 ⟨j, hj, hn⟩, rfl⟩)
      exact ⟨some (some n), .inr ⟨rfl, draft, some n, rfl, hread, rfl⟩⟩

theorem exists_meets_error_iff {drafts : List Draft} (hwhole : ∀ draft ∈ drafts, draft.Whole)
    {report : SyntaxFault} :
    (∃ held, Meets (optionalDraft SyntaxFault.ofDraft) none drafts held ∧
        held.join = some report) ↔
      ∃ draft, drafts = [draft] ∧ IsReport draft report := by
  constructor
  · rintro ⟨held, ⟨-, rfl⟩ | ⟨-, draft, value, rfl, hread, rfl⟩, hreport⟩
    · cases hreport
    · obtain ⟨-, rfl⟩ | ⟨-, other, hother, rfl⟩ := optionalDraft_eq_ok_iff.1 hread
      · cases hreport
      · cases hreport
        exact ⟨draft, rfl, (ofDraft_eq_ok_iff_isReport (hwhole draft (by simp))).1 hother⟩
  · rintro ⟨draft, rfl, hreport⟩
    have hne : draft ≠ .null := by
      rintro rfl
      cases hreport
    have hread := optionalDraft_eq_ok_iff.2
      (.inr ⟨hne, report, (ofDraft_eq_ok_iff_isReport (hwhole draft (by simp))).2 hreport, rfl⟩)
    exact ⟨some (some report), .inr ⟨rfl, draft, some report, rfl, hread, rfl⟩, rfl⟩

theorem readAnswer_eq_badSource_iff_read {symbols : List Symbol} {report : SyntaxFault} :
    readAnswer symbols = .error (.badSource report) ↔
      ∃ answer, Answer.read symbols = .ok answer ∧ answer.error = some report := by
  unfold readAnswer
  split
  · next h => simp [h]
  · next h => simp [h]
  · next answer h =>
    obtain ⟨root, error⟩ := answer
    cases error with
    | some other => simp [h]
    | none => cases root <;> simp [h]

/-- An answer that is an object reports a syntax error exactly when its only `error` is a report and
its `root` does not stop it. -/
theorem readAnswer_eq_badSource_iff {symbols : List Symbol} {members : List (String × Draft)}
    (hread : Draft.read symbols = (.object (named members) none, false)) {report : SyntaxFault} :
    readAnswer symbols = .error (.badSource report) ↔
      (∃ draft, valuesOf "error" members = [draft] ∧ IsReport draft report) ∧
        RootPasses (valuesOf "root" members) := by
  -- nothing in the answer breaks off, since the answer does not
  have hwhole : ∀ member ∈ members, member.2.Whole := by
    have hanswer : ¬ (Draft.read symbols).1.IsCut → (Draft.read symbols).1.Whole :=
      Json.whole_of_read
    rw [hread] at hanswer
    exact whole_of_named (Json.whole_object_iff.1 (hanswer id)).1
  have herrors : ∀ draft ∈ valuesOf "error" members, draft.Whole := by
    intro draft hdraft
    obtain ⟨member, hmember, rfl⟩ := mem_of_mem_valuesOf hdraft
    exact hwhole member hmember
  simp only [readAnswer_eq_badSource_iff_read, Answer.read, hread, Answer.ofDraft]
  simp only [bind_eq_ok_iff, pure_eq_ok_iff, AnswerFields.readObject_relates_iff hwhole]
  rw [← exists_meets_error_iff herrors, ← exists_meets_root_iff]
  constructor
  · rintro ⟨_, ⟨_, ⟨fields, ⟨hroot, herror⟩, rfl⟩, h⟩, hreport⟩
    cases h
    exact ⟨⟨fields.error, herror, hreport⟩, fields.root, hroot⟩
  · rintro ⟨⟨error, herror, hreport⟩, root, hroot⟩
    exact ⟨_, ⟨_, ⟨⟨root, error⟩, ⟨hroot, herror⟩, rfl⟩, rfl⟩, hreport⟩

/-! ## Trees -/

/-- The bytes of an object whose only member is the text, as `root`. -/
def rooted (text : String) : List UInt8 :=
  Text.encode ("\x7b\"root\":" ++ text ++ "\x7d")

/-- What an answer says that holds this tree and no report. -/
def verdict : Except DecodeError (Option Node) → Except ParseError Node
  | .error (.malformed fault) => .error (.badAnswer (.notJson fault))
  | .error e => .error (.badTree (.undecodable e))
  | .ok (some root) => .ok root
  | .ok none => .error (.badAnswer .empty)

theorem read_rooted {text : String} {draft : Draft}
    (hread : Draft.read (Json.symbolsOfText text) = (draft, false)) (hwhole : draft.Whole) :
    Draft.read (Text.symbols (rooted text)) = (.object [(.ok "root", draft)] none, false) := by
  have hsymbols : Text.symbols (rooted text) =
      some '\x7b' :: ((Json.writeText "root").map some ++
        some ':' :: (Json.symbolsOfText text ++ [some '\x7d'])) := by
    rw [rooted, Text.symbols_encode, String.toList_append, String.toList_append, List.map_append,
      List.map_append]
    rfl
  rw [hsymbols]
  exact Json.read_member hread hwhole "root"

theorem readAnswer_of_read_root {symbols : List Symbol} {draft : Draft}
    (hread : Draft.read symbols = (.object [(.ok "root", draft)] none, false)) :
    readAnswer symbols = verdict (optionalDraft (Node.ofDraft (Json.nestingLimit - 1)) draft) := by
  have hanswer : Answer.read symbols =
      (fun root => ⟨root, none⟩) <$>
        optionalDraft (Node.ofDraft (Json.nestingLimit - 1)) draft := by
    rw [Answer.read, hread]
    show (Answer.ofDraft (Json.nestingLimit - 1) (.object [(.ok "root", draft)] none) >>= pure) = _
    simp only [Answer.ofDraft, readObject, AnswerFields.take, AnswerFields.takeRoot, meet]
    cases optionalDraft (Node.ofDraft (Json.nestingLimit - 1)) draft <;> rfl
  rw [readAnswer, hanswer]
  cases optionalDraft (Node.ofDraft (Json.nestingLimit - 1)) draft with
  | error e => cases e <;> rfl
  | ok root => cases root <;> rfl

/-- One level may be spared, if the text does not need it. -/
theorem parse_of_read {text : String} {draft : Draft}
    (hread : Draft.read (Json.symbolsOfText text) = (draft, false))
    (hdepth : draft.depth ≤ Json.nestingLimit - 1) :
    Node.parse text = Node.ofDraft (Json.nestingLimit - 1) draft := by
  rw [← ofDraft_succ_of_depth_le hdepth, Node.parse, hread]
  exact bind_pure _

/-- A tree is read inside an answer as it is alone, if there is room for the object around it. -/
theorem readAnswer_rooted {text : String} {draft : Draft}
    (hread : Draft.read (Json.symbolsOfText text) = (draft, false)) (hwhole : draft.Whole)
    (hdepth : draft.depth ≤ Json.nestingLimit - 1) (hnull : draft ≠ .null) :
    readAnswer (Text.symbols (rooted text)) = verdict (some <$> Node.parse text) := by
  rw [readAnswer_of_read_root (read_rooted hread hwhole), parse_of_read hread hdepth]
  cases draft with
  | null => exact absurd rfl hnull
  | _ => rfl

theorem verdict_eq_ok_iff {x : Except DecodeError Node} {n : Node} :
    verdict (some <$> x) = .ok n ↔ x = .ok n := by
  cases x with
  | ok other => simp [verdict, Functor.map, Except.map]
  | error e => cases e <;> simp [verdict, Functor.map, Except.map]

theorem verdict_eq_notJson_iff {x : Except DecodeError Node} {fault : Fault} :
    verdict (some <$> x) = .error (.badAnswer (.notJson fault)) ↔
      x = .error (.malformed fault) := by
  cases x with
  | ok other => simp [verdict, Functor.map, Except.map]
  | error e => cases e <;> simp [verdict, Functor.map, Except.map]

theorem verdict_eq_badTree_iff {x : Except DecodeError Node} {e : DecodeError} :
    verdict (some <$> x) = .error (.badTree (.undecodable e)) ↔
      x = .error e ∧ ∀ fault, e ≠ .malformed fault := by
  cases x with
  | ok other => simp [verdict, Functor.map, Except.map]
  | error e' =>
    cases e' with
    | malformed fault =>
      refine iff_of_false nofun ?_
      rintro ⟨he, h⟩
      exact h fault (Except.error.inj he).symm
    | _ =>
      simp only [verdict, Functor.map, Except.map, Except.error.injEq, ParseError.badTree.injEq,
        TreeError.undecodable.injEq, iff_self_and]
      rintro rfl
      exact nofun

theorem settle_eq_ok_null_iff {levels : Nat} {draft : Draft} {j : Json}
    (h : draft.settle levels = .ok j) : draft = .null ↔ j = .null := by
  constructor
  · rintro rfl
    cases h
    rfl
  · rintro rfl
    have hfound := found_of_settle h
    cases draft with
    | null => rfl
    | number x | text x => cases x <;> cases hfound
    | _ => cases hfound

/-- Answers and trees are decoded alike, and a report wins.

A JSON text that leaves room for the object around it is a tree inside an answer exactly when it is
one alone. Else the errors are the same, except for `null`, which stands for no tree. A text that
has the form of JSON may hold what no value can, such as a number that is too large; that is a fault
of the text, and inside an answer a fault of the answer. An object with one report besides a tree, a
`null` or nothing is read as that report, and no other object is. -/
theorem answer_decodes_as_tree_or_report :
    (∀ text j, Json.parse 126 text = .ok j →
      (∀ n, readAnswer (Text.symbols (rooted text)) = .ok n ↔ Node.parse text = .ok n) ∧
      (j = .null → readAnswer (Text.symbols (rooted text)) = .error (.badAnswer .empty)) ∧
      (j ≠ .null → ∀ e, readAnswer (Text.symbols (rooted text)) =
        .error (.badTree (.undecodable e)) ↔ Node.parse text = .error e)) ∧
    (∀ text draft, Draft.read (Json.symbolsOfText text) = (draft, false) → draft.Whole →
      draft.depth ≤ 126 → draft ≠ .null →
      (∀ n, readAnswer (Text.symbols (rooted text)) = .ok n ↔ Node.parse text = .ok n) ∧
      (∀ fault, readAnswer (Text.symbols (rooted text)) =
        .error (.badAnswer (.notJson fault)) ↔ Node.parse text = .error (.malformed fault)) ∧
      (∀ e, readAnswer (Text.symbols (rooted text)) = .error (.badTree (.undecodable e)) ↔
        Node.parse text = .error e ∧ ∀ fault, e ≠ .malformed fault)) ∧
    (∀ stdout members report,
      Draft.read (Text.symbols stdout) = (.object (named members) none, false) →
      (readAnswer (Text.symbols stdout) = .error (.badSource report) ↔
        (∃ draft, valuesOf "error" members = [draft] ∧ IsReport draft report) ∧
          RootPasses (valuesOf "root" members))) := by
  refine ⟨fun text j hparse => ?_, fun text draft hread hwhole hdepth hnull => ?_,
    fun stdout members report hread => readAnswer_eq_badSource_iff hread⟩
  · obtain ⟨draft, hread, hsettle⟩ := Json.parse_eq_ok_iff.1 hparse
    obtain ⟨hwhole, hdepth⟩ := Json.whole_of_settle draft 126 j hsettle
    have hvalue : Node.parse text = Node.ofJson j :=
      (parse_of_read hread hdepth).trans (ofDraft_of_settle hsettle)
    by_cases hnull : draft = .null
    · obtain rfl : j = .null := (settle_eq_ok_null_iff hsettle).1 hnull
      subst hnull
      have hanswer : readAnswer (Text.symbols (rooted text)) = .error (.badAnswer .empty) :=
        readAnswer_of_read_root (read_rooted hread hwhole)
      rw [hanswer, hvalue]
      exact ⟨fun n => iff_of_false nofun nofun, fun _ => rfl, fun hne => absurd rfl hne⟩
    · have hj : j ≠ .null := fun hj => hnull ((settle_eq_ok_null_iff hsettle).2 hj)
      rw [readAnswer_rooted hread hwhole hdepth hnull]
      refine ⟨fun n => verdict_eq_ok_iff, fun heq => absurd heq hj, fun _ e => ?_⟩
      -- the errors of a value are no faults of its text
      rw [verdict_eq_badTree_iff, hvalue, and_iff_left_of_imp]
      rintro he fault rfl
      exact faultFree_ofJson j fault he
  · rw [readAnswer_rooted hread hwhole hdepth hnull]
    exact ⟨fun n => verdict_eq_ok_iff, fun fault => verdict_eq_notJson_iff,
      fun e => verdict_eq_badTree_iff⟩

/-- A keyword inside an answer, and a report beside a `null` and a member that passes unread. -/
theorem answer_decodes_keyword_and_report :
    readAnswer (Text.symbols (rooted
        (Json.object [("type", .text "Keyword"), ("value", .text "red")]).compactText)) =
      .ok ⟨none, .keyword (.text "red")⟩ ∧
    readAnswer (Text.symbols (Text.encode ("\x7b\"x\":[1e999],\"error\":\x7b\"line\":3," ++
        "\"message\":\"bad\"\x7d,\"root\":null\x7d"))) =
      .error (.badSource ⟨"bad", none, some 3, none⟩) := by
  constructor
  · have hreadable (levels : Nat) : Json.Readable (levels + 1)
        (.object [("type", .text "Keyword"), ("value", .text "red")]) := .object (by simp)
    refine ((answer_decodes_as_tree_or_report.1 _ _
      (Json.parse_compactText (hreadable 125))).1 _).2 ?_
    exact Node.parse_eq_ok_iff.2 ⟨_, Json.parse_compactText (hreadable 126), rfl⟩
  · have hread : Draft.read (Text.symbols (Text.encode
        ("\x7b\"x\":[1e999],\"error\":\x7b\"line\":3," ++
          "\"message\":\"bad\"\x7d,\"root\":null\x7d"))) =
        (.object (named [("x", .array [.number (.error .numberOutOfRange)] none),
          ("error", .object (named [("line", numberDraft 3), ("message", textDraft "bad")]) none),
          ("root", .null)]) none, false) := by
      rw [Text.symbols_encode]
      rfl
    refine (answer_decodes_as_tree_or_report.2.2 _ _ _ hread).2 ⟨⟨_, rfl, ?_⟩, .inr (.inl rfl)⟩
    exact .object rfl (.inl rfl) rfl (.inl rfl)

end ImportSweep.Parser
