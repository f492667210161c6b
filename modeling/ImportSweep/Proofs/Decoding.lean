import ImportSweep.Tree.Decode
import ImportSweep.Proofs.Fallible

/-!
# What it takes to decode

Whether an object decodes depends, for each name, on the list of all values of that name
(`valuesOf`): a reader accepts at most one, and looks at nothing else (`member_eq_ok_iff`).

A text is decoded while it is read. When that succeeds, the text is JSON and its value decodes, and
the other way round (`Node.parse_eq_ok_iff`); only errors depend on the order of the work.
-/

namespace ImportSweep.Tree

open ImportSweep.Json (Draft Key)

/-! ## Steps -/

namespace Placed

variable {α β : Type}

theorem run_seq_eq_ok_iff {f : Placed (α → β)} {x : Placed α} {b : β} :
    (f <*> x).run = .ok b ↔ ∃ g a, f.run = .ok g ∧ x.run = .ok a ∧ g a = b := by
  obtain ⟨f⟩ := f
  obtain ⟨x⟩ := x
  show (Placed.seq ⟨f⟩ fun _ => ⟨x⟩).run = .ok b ↔ _
  cases f <;> cases x <;> simp [Placed.seq]

theorem run_map_eq_ok_iff {f : α → β} {x : Placed α} {b : β} :
    (f <$> x).run = .ok b ↔ ∃ a, x.run = .ok a ∧ f a = b := by
  show (pure f <*> x).run = .ok b ↔ _
  rw [run_seq_eq_ok_iff]
  constructor
  · rintro ⟨g, a, hg, ha, rfl⟩
    cases hg
    exact ⟨a, ha, rfl⟩
  · rintro ⟨a, ha, rfl⟩
    exact ⟨f, a, rfl, ha, rfl⟩

theorem run_seqLeft_eq_ok_iff {x : Placed α} {y : Placed β} {a : α} :
    (x <* y).run = .ok a ↔ x.run = .ok a ∧ ∃ b, y.run = .ok b := by
  show (Function.const β <$> x <*> y).run = .ok a ↔ _
  simp only [run_seq_eq_ok_iff, run_map_eq_ok_iff]
  constructor
  · rintro ⟨_, b, ⟨a, ha, rfl⟩, hb, rfl⟩
    exact ⟨ha, b, hb⟩
  · rintro ⟨ha, b, hb⟩
    exact ⟨_, b, ⟨a, ha, rfl⟩, hb, rfl⟩

theorem result_eq_ok_iff {x : Placed α} {a : α} : x.result = .ok a ↔ x.run = .ok a :=
  mapError_eq_ok_iff

theorem run_put_eq_ok_iff {place : Nat} {x : Except DecodeError α} {a : α} :
    (put place x).run = .ok a ↔ x = .ok a :=
  mapError_eq_ok_iff

theorem forall_run_map {f : α → β} {x : Placed α} {P : β → Prop} (h : ∀ a, P (f a)) :
    ∀ b, (f <$> x).run = .ok b → P b := by
  intro b hb
  obtain ⟨a, -, rfl⟩ := run_map_eq_ok_iff.1 hb
  exact h a

theorem forall_run_seq {f : Placed (α → β)} {x : Placed α} {P : β → Prop}
    (h : ∀ g, f.run = .ok g → ∀ a, P (g a)) : ∀ b, (f <*> x).run = .ok b → P b := by
  intro b hb
  obtain ⟨g, a, hg, -, rfl⟩ := run_seq_eq_ok_iff.1 hb
  exact h g hg a

end Placed

/-! ## Members of an object -/

/-- All values of a name, in order. -/
def valuesOf {α : Type} (name : String) (members : List (String × α)) : List α :=
  (members.filter (·.1 = name)).map (·.2)

theorem valuesOf_cons {α : Type} (name : String) (member : String × α)
    (members : List (String × α)) :
    valuesOf name (member :: members)
      = if member.1 = name then member.2 :: valuesOf name members else valuesOf name members := by
  by_cases h : member.1 = name <;> simp [valuesOf, h]

theorem valuesOf_append {α : Type} (name : String) (members added : List (String × α)) :
    valuesOf name (members ++ added) = valuesOf name members ++ valuesOf name added := by
  simp [valuesOf]

theorem valuesOf_append_cons_of_ne {α : Type} {key name : String} (h : name ≠ key) (a : α)
    (before after : List (String × α)) :
    valuesOf key (before ++ (name, a) :: after) = valuesOf key before ++ valuesOf key after := by
  rw [valuesOf_append, valuesOf_cons, if_neg h]

/-- Where no two members have one name, each member has the only value of its name. -/
theorem valuesOf_of_nodup {α : Type} {name : String} {a : α} {members : List (String × α)}
    (hnodup : (members.map Prod.fst).Nodup) (h : (name, a) ∈ members) :
    valuesOf name members = [a] := by
  induction members with
  | nil => cases h
  | cons member members ih =>
    obtain ⟨hfirst, hnodup⟩ := List.nodup_cons.1 hnodup
    rw [valuesOf_cons]
    rcases List.mem_cons.1 h with rfl | h
    · -- no other member has the name of the first
      have hnone : valuesOf name members = [] := by
        simp only [valuesOf, List.map_eq_nil_iff, List.filter_eq_nil_iff, decide_eq_true_eq]
        intro other hother heq
        exact hfirst (List.mem_map.2 ⟨other, hother, heq⟩)
      rw [if_pos rfl, hnone]
    · have hne : member.1 ≠ name := by
        rintro rfl
        exact hfirst (List.mem_map.2 ⟨_, h, rfl⟩)
      rw [if_neg hne, ih hnodup h]

theorem map_snd_occurrences (name : String) (place : Nat) (members : List (String × Reading)) :
    (Fields.occurrences name place members).map (·.2) = valuesOf name members := by
  induction members generalizing place with
  | nil => rfl
  | cons member members ih =>
    rw [valuesOf_cons, Fields.occurrences, ← ih (place + 1)]
    split <;> rfl

theorem ofItems_eq_map (items : List Json) :
    Reading.ofItems items = items.map Reading.ofJson := by
  induction items with
  | nil => rfl
  | cons j items ih => rw [Reading.ofItems, ih, List.map_cons]

theorem valuesOf_ofMembers (name : String) (members : List (String × Json)) :
    valuesOf name (Reading.ofMembers members) = (valuesOf name members).map Reading.ofJson := by
  induction members with
  | nil => rfl
  | cons member members ih =>
    obtain ⟨key, j⟩ := member
    rw [Reading.ofMembers, valuesOf_cons, valuesOf_cons, ih]
    split <;> rfl

/-- A member is read when it is absent and has a default, or when it stands there once and its value
is read. -/
theorem member_eq_ok_iff {α : Type} {members : List (String × Reading)} {name : String}
    {absent : Except DecodeError α} {reader : Reading → Except DecodeError α} {a : α} :
    (Fields.member members name absent reader).run = .ok a ↔
      (valuesOf name members = [] ∧ absent = .ok a) ∨
        ∃ r, valuesOf name members = [r] ∧ reader r = .ok a := by
  rw [← map_snd_occurrences name 0, Fields.member]
  split
  · rename_i h
    simp [h, Placed.run_put_eq_ok_iff]
  · rename_i h
    simp [h, Placed.run_put_eq_ok_iff]
  · rename_i h
    split <;> simp [h, Placed.run_put_eq_ok_iff]

/-- A member that stands beside others is read when none of them has its name. -/
theorem member_append_cons_eq_ok_iff {α : Type} {before after : List (String × Json)}
    {name : String} {j : Json} {absent : Except DecodeError α}
    {reader : Reading → Except DecodeError α} {a : α} :
    (Fields.member (Reading.ofMembers (before ++ (name, j) :: after)) name absent reader).run =
        .ok a ↔
      (valuesOf name before = [] ∧ valuesOf name after = []) ∧
        reader (Reading.ofJson j) = .ok a := by
  rw [member_eq_ok_iff, valuesOf_ofMembers, valuesOf_append, valuesOf_cons, if_pos rfl]
  cases valuesOf name before <;> cases valuesOf name after <;> simp

/-- The body of a node is of the kind that it was read for. -/
theorem kind_of_body {m : NodeMembers} (kind : Kind) :
    ∀ body, (m.body kind).run = .ok body → body.kind = kind := by
  cases kind
  all_goals
    simp only [NodeMembers.body]
    -- each further member is one more argument, and the first step holds the constructor
    repeat with_reducible apply Placed.forall_run_seq
    apply Placed.forall_run_map
    intros
    rfl

/-- An object is a node when its offset, its kind and the members of that kind are read. -/
theorem decode_eq_ok_iff {m : NodeMembers} {n : Node} :
    m.decode = .ok n ↔
      (m.get "index" none (Reading.optional Reading.offset)).run = .ok n.index ∧
      (Fields.member m.members "type" (.error (.missing "type")) Reading.kind).run = .ok n.kind ∧
      (m.body n.kind).run = .ok n.body := by
  simp only [NodeMembers.decode, bind_eq_ok_iff, Placed.result_eq_ok_iff, pure_eq_ok_iff]
  constructor
  · rintro ⟨index, hindex, kind, hkind, body, hbody, rfl⟩
    obtain rfl : body.kind = kind := kind_of_body kind body hbody
    exact ⟨hindex, hkind, hbody⟩
  · rintro ⟨hindex, hkind, hbody⟩
    obtain ⟨index, body⟩ := n
    exact ⟨index, hindex, _, hkind, body, hbody, rfl⟩

/-! ## Texts -/

/-- The object of a draft that settles has members that settle, and does not break off. -/
theorem settle_object_eq_ok_iff {levels : Nat} {drafts : List (Key × Draft)}
    {ending : Option Json.Break} {j : Json} :
    (Draft.object drafts ending).settle (levels + 1) = .ok j ↔
      ending = none ∧ ∃ members, Draft.settleMembers levels drafts = .ok members ∧
        j = .object members := by
  rw [Draft.settle]
  simp only [bind_eq_ok_iff]
  cases ending with
  | none => simp [eq_comm]
  | some why => simp

theorem settleMembers_cons_eq_ok_iff {levels : Nat} {key : Key} {draft : Draft}
    {drafts : List (Key × Draft)} {members : List (String × Json)} :
    Draft.settleMembers levels ((key, draft) :: drafts) = .ok members ↔
      ∃ name j rest, key = .ok name ∧ draft.settle levels = .ok j ∧
        Draft.settleMembers levels drafts = .ok rest ∧ members = (name, j) :: rest := by
  rw [Draft.settleMembers]
  simp only [bind_eq_ok_iff, pure_eq_ok_iff]
  constructor
  · rintro ⟨name, hname, j, hj, rest, hrest, rfl⟩
    exact ⟨name, j, rest, hname, hj, hrest, rfl⟩
  · rintro ⟨name, j, rest, hname, hj, hrest, rfl⟩
    exact ⟨name, hname, j, hj, rest, hrest, rfl⟩

/-- A draft is found to be what its value is. -/
theorem found_of_settle {levels : Nat} {draft : Draft} {j : Json}
    (h : draft.settle levels = .ok j) : Found.ofDraft draft = .ok (Found.ofJson j) := by
  cases draft with
  | null | flag =>
    cases h
    rfl
  | number x | text x =>
    cases x with
    | error fault => cases h
    | ok x =>
      cases h
      rfl
  | array items ending =>
    cases levels with
    | zero => cases h
    | succ levels =>
      simp only [Draft.settle, bind_eq_ok_iff] at h
      obtain ⟨values, -, h⟩ := h
      cases ending with
      | some why => cases h
      | none =>
        cases h
        rfl
  | object members ending =>
    cases levels with
    | zero => cases h
    | succ levels =>
      obtain ⟨-, values, -, rfl⟩ := settle_object_eq_ok_iff.1 h
      rfl
  | broken why => cases h

/-- An offset is read off a draft as off its value. -/
theorem offsetOfDraft_of_settle {levels : Nat} {draft : Draft} {j : Json}
    (h : draft.settle levels = .ok j) :
    offsetOfDraft draft = Reading.optional Reading.offset (Reading.ofJson j) := by
  rw [offsetOfDraft, found_of_settle h]
  cases j with
  | number x => cases x <;> rfl
  | _ => rfl

/-- Members that are read one after the other are members of the value. -/
theorem settleMembers_of_readMembers {levels : Nat} {seen : Bool} {drafts : List (Key × Draft)}
    {members : List (String × Json)} (h : readMembers levels seen drafts = .ok members) :
    Draft.settleMembers levels drafts = .ok members := by
  induction drafts generalizing seen members with
  | nil =>
    cases h
    rfl
  | cons entry drafts ih =>
    obtain ⟨key, draft⟩ := entry
    rw [settleMembers_cons_eq_ok_iff]
    simp only [readMembers, bind_eq_ok_iff, orMalformed, mapError_eq_ok_iff] at h
    obtain ⟨name, hname, h⟩ := h
    split at h
    · split at h
      · cases h
      · obtain ⟨_, -, h⟩ := bind_eq_ok_iff.1 h
        obtain ⟨j, hj, h⟩ := bind_eq_ok_iff.1 h
        obtain ⟨rest, hrest, h⟩ := bind_eq_ok_iff.1 h
        exact ⟨name, j, rest, hname, mapError_eq_ok_iff.1 hj, ih hrest, (pure_eq_ok_iff.1 h).symm⟩
    · obtain ⟨j, hj, h⟩ := bind_eq_ok_iff.1 h
      obtain ⟨rest, hrest, h⟩ := bind_eq_ok_iff.1 h
      exact ⟨name, j, rest, hname, mapError_eq_ok_iff.1 hj, ih hrest, (pure_eq_ok_iff.1 h).symm⟩

/-- The members of a value are read one after the other if they hold at most one offset, which is
one. -/
theorem readMembers_of_settleMembers {levels : Nat} {seen : Bool} {drafts : List (Key × Draft)}
    {members : List (String × Json)} (h : Draft.settleMembers levels drafts = .ok members)
    (honce : (valuesOf "index" members).length + seen.toNat ≤ 1)
    (hoffset : ∀ j ∈ valuesOf "index" members,
      ∃ index, Reading.optional Reading.offset (Reading.ofJson j) = .ok index) :
    readMembers levels seen drafts = .ok members := by
  -- on the members; an offset that was seen leaves no room for another
  induction drafts generalizing seen members with
  | nil =>
    cases h
    rfl
  | cons entry drafts ih =>
    obtain ⟨key, draft⟩ := entry
    obtain ⟨name, j, rest, rfl, hj, hrest, rfl⟩ := settleMembers_cons_eq_ok_iff.1 h
    rw [valuesOf_cons] at honce hoffset
    rw [readMembers]
    refine bind_eq_ok_iff.2 ⟨name, rfl, ?_⟩
    have hvalue : orMalformed (draft.settle levels) = .ok j := mapError_eq_ok_iff.2 hj
    by_cases hname : name = "index"
    · simp only [hname, if_true, List.length_cons] at honce hoffset ⊢
      obtain rfl : seen = false := by
        cases seen with
        | false => rfl
        | true => simp at honce
      obtain ⟨index, hindex⟩ := hoffset j List.mem_cons_self
      have hread : readMembers levels true drafts = .ok rest :=
        ih hrest (by simpa using honce) fun j hj => hoffset j (List.mem_cons_of_mem _ hj)
      simp [offsetOfDraft_of_settle hj, hindex, hvalue, hread, bind, Except.bind, pure, Except.pure]
    · simp only [hname, if_false] at honce hoffset ⊢
      have hread := ih hrest honce hoffset
      simp [hvalue, hread, bind, Except.bind, pure, Except.pure]

/-- Where a node is due, an object is read member by member exactly when its value decodes. -/
theorem ofDraft_object_eq_ok_iff {levels : Nat} {drafts : List (Key × Draft)}
    {ending : Option Json.Break} {n : Node} :
    Node.ofDraft (levels + 1) (.object drafts ending) = .ok n ↔
      ending = none ∧ ∃ members, Draft.settleMembers levels drafts = .ok members ∧
        NodeMembers.decode ⟨Reading.ofMembers members⟩ = .ok n := by
  simp only [Node.ofDraft, bind_eq_ok_iff]
  constructor
  · rintro ⟨members, hmembers, h⟩
    cases ending with
    | some why => cases h
    | none => exact ⟨rfl, members, settleMembers_of_readMembers hmembers, h⟩
  · rintro ⟨rfl, members, hmembers, h⟩
    refine ⟨members, ?_, h⟩
    -- what decodes has at most one offset, and that is one
    have hindex := (decode_eq_ok_iff.1 h).1
    rw [NodeMembers.get, member_eq_ok_iff, valuesOf_ofMembers] at hindex
    apply readMembers_of_settleMembers hmembers
    · obtain ⟨hnone, -⟩ | ⟨r, hone, -⟩ := hindex
      · simp [List.map_eq_nil_iff.1 hnone]
      · have hlength := congrArg List.length hone
        rw [List.length_map] at hlength
        simp [hlength]
    · intro j hj
      have hmem : Reading.ofJson j ∈ (valuesOf "index" members).map Reading.ofJson :=
        List.mem_map_of_mem hj
      obtain ⟨hnone, -⟩ | ⟨r, hone, hr⟩ := hindex
      · simp [hnone] at hmem
      · rw [hone, List.mem_singleton] at hmem
        exact ⟨n.index, hmem ▸ hr⟩

theorem exists_object_of_settle {levels : Nat} {draft : Draft} {members : List (String × Json)}
    (h : draft.settle levels = .ok (.object members)) :
    ∃ drafts ending, draft = .object drafts ending := by
  have hfound := found_of_settle h
  cases draft with
  | object drafts ending => exact ⟨drafts, ending, rfl⟩
  | number x | text x => cases x <;> cases hfound
  | _ => cases hfound

theorem exists_object_of_ofJson {j : Json} {n : Node} (h : Node.ofJson j = .ok n) :
    ∃ members, j = .object members := by
  cases j with
  | object members => exact ⟨members, rfl⟩
  | _ => cases h

theorem ofDraft_eq_ok_iff {levels : Nat} {draft : Draft} {n : Node} :
    Node.ofDraft (levels + 1) draft = .ok n ↔
      ∃ j, draft.settle (levels + 1) = .ok j ∧ Node.ofJson j = .ok n := by
  constructor
  · intro h
    cases draft with
    | object drafts ending =>
      obtain ⟨rfl, members, hmembers, h⟩ := ofDraft_object_eq_ok_iff.1 h
      exact ⟨.object members, settle_object_eq_ok_iff.2 ⟨rfl, members, hmembers, rfl⟩, h⟩
    | _ =>
      -- of nothing else is a node read
      simp [Node.ofDraft, bind_eq_ok_iff] at h
  · rintro ⟨j, hj, h⟩
    obtain ⟨members, rfl⟩ := exists_object_of_ofJson h
    obtain ⟨drafts, ending, rfl⟩ := exists_object_of_settle hj
    obtain ⟨rfl, values, hvalues, hj⟩ := settle_object_eq_ok_iff.1 hj
    cases hj
    exact ofDraft_object_eq_ok_iff.2 ⟨rfl, members, hvalues, h⟩

/-- A text decodes exactly when it is JSON whose value decodes. -/
theorem Node.parse_eq_ok_iff {text : String} {n : Node} :
    Node.parse text = .ok n ↔
      ∃ j, Json.parse Json.nestingLimit text = .ok j ∧ Node.ofJson j = .ok n := by
  rcases hread : Draft.read (Json.symbolsOfText text) with ⟨draft, trailing⟩
  have hparse (j : Json) : Json.parse Json.nestingLimit text = .ok j ↔
      draft.settle Json.nestingLimit = .ok j ∧ trailing = false := by
    cases hsettle : draft.settle Json.nestingLimit <;> cases trailing <;>
      simp [Json.parse, hread, hsettle]
  simp only [Node.parse, hread, bind_eq_ok_iff, hparse]
  cases trailing with
  | true => simp
  | false => simp [Json.nestingLimit, ofDraft_eq_ok_iff, pure_eq_ok_iff]

end ImportSweep.Tree
