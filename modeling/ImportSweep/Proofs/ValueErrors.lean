import ImportSweep.Proofs.Decoding
import ImportSweep.Proofs.WholeValues

/-!
# Errors of a value and faults of its text

A text may fail to be a tree because it is not JSON, or because its value is no node.
`faultFree_ofJson` says that decoding a value never reports the first: no step of it makes up a
fault of the text.

`ofDraft_of_settle` says that a text which is JSON decodes as its value does, with the same node or
the same error. What is checked while the text is read, the offset, is also what is looked at first
in the value.
-/

namespace ImportSweep.Tree

open ImportSweep.Json (Draft Key Fault)

/-- The computation does not fail with a fault of the text. -/
def FaultFree {α : Type} (x : Except DecodeError α) : Prop :=
  ∀ fault, x ≠ .error (.malformed fault)

section Steps

variable {α β : Type}

@[simp] theorem faultFree_ok (a : α) : FaultFree (.ok a) :=
  nofun

@[simp] theorem faultFree_error_iff {e : DecodeError} :
    FaultFree (.error e : Except DecodeError α) ↔ ∀ fault, e ≠ .malformed fault := by
  simp [FaultFree]

theorem FaultFree.bind {x : Except DecodeError α} {f : α → Except DecodeError β}
    (hx : FaultFree x) (hf : ∀ a, FaultFree (f a)) : FaultFree (x >>= f) := by
  intro fault h
  obtain h | ⟨a, -, h⟩ := bind_eq_error_iff.1 h
  · exact hx fault h
  · exact hf a fault h

theorem FaultFree.map {x : Except DecodeError α} (hx : FaultFree x) (f : α → β) :
    FaultFree (f <$> x) := by
  cases x with
  | error e => exact faultFree_error_iff.2 (faultFree_error_iff.1 hx)
  | ok a => exact faultFree_ok (f a)

theorem faultFree_mapM {f : α → Except DecodeError β} {items : List α}
    (h : ∀ a ∈ items, FaultFree (f a)) : FaultFree (items.mapM f) := by
  intro fault herror
  obtain ⟨before, a, after, rfl, -, ha⟩ := (mapM_eq_error_iff fun _ _ => Iff.rfl).1 herror
  exact h a (by simp) fault ha

namespace Placed

@[simp] theorem faultFree_put {place : Nat} {x : Except DecodeError α} :
    FaultFree (put place x).result ↔ FaultFree x := by
  cases x <;> simp [FaultFree, put, result, Except.mapError]

@[simp] theorem faultFree_pure (a : α) : FaultFree (pure a : Placed α).result :=
  faultFree_ok a

theorem faultFree_seq {f : Placed (α → β)} {x : Placed α} (hf : FaultFree f.result)
    (hx : FaultFree x.result) : FaultFree (f <*> x).result := by
  obtain ⟨f⟩ := f
  obtain ⟨x⟩ := x
  show FaultFree (Placed.seq ⟨f⟩ fun _ => ⟨x⟩).result
  cases f with
  | ok g =>
    cases x with
    | ok a => exact faultFree_ok (g a)
    | error e => exact faultFree_error_iff.2 (faultFree_error_iff.1 hx)
  | error e =>
    cases x with
    | ok a => exact faultFree_error_iff.2 (faultFree_error_iff.1 hf)
    | error e' =>
      -- of two errors one is kept
      simp only [Placed.seq]
      split
      · exact faultFree_error_iff.2 (faultFree_error_iff.1 hx)
      · exact faultFree_error_iff.2 (faultFree_error_iff.1 hf)

@[simp] theorem faultFree_map_iff {f : α → β} {x : Placed α} :
    FaultFree (f <$> x).result ↔ FaultFree x.result := by
  obtain ⟨x⟩ := x
  show FaultFree (Placed.seq ⟨.ok f⟩ fun _ => ⟨x⟩).result ↔ _
  cases x <;> simp [Placed.seq, result, Except.mapError]

theorem faultFree_seqLeft {x : Placed α} {y : Placed β} (hx : FaultFree x.result)
    (hy : FaultFree y.result) : FaultFree (x <* y).result :=
  faultFree_seq (faultFree_map_iff.2 hx) hy

end Placed

end Steps

/-! ## Readers -/

namespace Reading

@[simp] theorem faultFree_wrongType {α : Type} (r : Reading) (expected : Expected) :
    FaultFree (r.wrongType expected : Except DecodeError α) := by
  simp [wrongType]

@[simp] theorem faultFree_plainText (r : Reading) : FaultFree r.plainText := by
  cases r <;> simp [plainText]

@[simp] theorem faultFree_truth (r : Reading) : FaultFree r.truth := by
  cases r <;> simp [truth]

@[simp] theorem faultFree_offset (r : Reading) : FaultFree r.offset := by
  unfold offset
  split <;> simp

@[simp] theorem faultFree_kind (r : Reading) : FaultFree r.kind := by
  unfold kind
  split
  · split <;> simp
  · split <;> simp
  · simp

@[simp] theorem faultFree_value (r : Reading) : FaultFree r.value := by
  unfold value
  split <;> simp

@[simp] theorem faultFree_declaredName (r : Reading) : FaultFree r.declaredName := by
  unfold declaredName
  simp only
  split <;> simp

section

variable {α : Type} {reader : Reading → Except DecodeError α} {r : Reading}

@[simp] theorem faultFree_optional (h : FaultFree (reader r)) : FaultFree (r.optional reader) := by
  cases r with
  | null => exact faultFree_ok none
  | _ => exact h.map some

@[simp] theorem faultFree_orElse (default : α) (h : FaultFree (reader r)) :
    FaultFree (r.orElse default reader) :=
  (faultFree_optional h).bind fun _ => faultFree_ok _

theorem faultFree_listOf (h : ∀ items, r = .array items → ∀ item ∈ items, FaultFree (reader item)) :
    FaultFree (r.listOf reader) := by
  cases r with
  | array items => exact faultFree_mapM (h items rfl)
  | _ => exact faultFree_wrongType _ _

end

/-- Where the value is an object, or an array of objects, these are nodes or fail as values. -/
def Clean (r : Reading) : Prop :=
  FaultFree r.node ∧ ∀ items, r = .array items → ∀ item ∈ items, FaultFree item.node

end Reading

namespace Fields

variable {α : Type}

@[simp] theorem faultFree_member {members : List (String × Reading)} {name : String}
    {absent : Except DecodeError α} {reader : Reading → Except DecodeError α}
    (habsent : FaultFree absent) (hreader : ∀ r ∈ valuesOf name members, FaultFree (reader r)) :
    FaultFree (member members name absent reader).result := by
  rw [← map_snd_occurrences name 0] at hreader
  rw [member]
  split
  · simpa using habsent
  · next place r hone =>
    rw [hone] at hreader
    simpa using hreader
  · next place r again other rest hmore =>
    rw [hmore] at hreader
    have hfirst : FaultFree (reader r) := hreader r (by simp)
    split
    · next e he =>
      rw [he] at hfirst
      simpa using hfirst
    · simp

@[simp] theorem faultFree_get {fields : Fields} {position : Nat} {name : String} {default : α}
    {reader : Reading → Except DecodeError α} (hreader : ∀ r, FaultFree (reader r)) :
    FaultFree (fields.get position name default reader).result := by
  cases fields with
  | members ms => exact faultFree_member (faultFree_ok default) fun r _ => hreader r
  | items rs =>
    rw [get]
    split <;> simp [hreader]

@[simp] theorem faultFree_atMost (fields : Fields) (count : Nat) :
    FaultFree (fields.atMost count).result := by
  cases fields with
  | members ms => exact Placed.faultFree_pure ()
  | items rs =>
    rw [atMost]
    split <;> simp

@[simp] theorem faultFree_read {expected : Expected} {record : Fields → Placed α}
    (h : ∀ fields, FaultFree (record fields).result) (r : Reading) :
    FaultFree (read expected record r) := by
  cases r with
  | object ms node => exact h (members ms)
  | array rs => exact h (items rs)
  | _ => exact Reading.faultFree_wrongType _ _

@[simp] theorem faultFree_importOptions (fields : Fields) :
    FaultFree (importOptions fields).result := by
  apply Placed.faultFree_seqLeft
  · repeat with_reducible apply Placed.faultFree_seq
    all_goals simp
  · simp

@[simp] theorem faultFree_argument (fields : Fields) : FaultFree (argument fields).result := by
  apply Placed.faultFree_seqLeft
  · repeat with_reducible apply Placed.faultFree_seq
    all_goals simp
  · simp

@[simp] theorem faultFree_parameter (fields : Fields) : FaultFree (parameter fields).result := by
  apply Placed.faultFree_seqLeft
  · repeat with_reducible apply Placed.faultFree_seq
    all_goals simp
  · simp

end Fields

/-! ## Nodes -/

theorem mem_of_mem_valuesOf {α : Type} {name : String} {members : List (String × α)} {a : α}
    (h : a ∈ valuesOf name members) : ∃ member ∈ members, member.2 = a := by
  obtain ⟨member, hmember, rfl⟩ := List.mem_map.1 h
  exact ⟨member, (List.mem_filter.1 hmember).1, rfl⟩

namespace NodeMembers

/-- All members are clean. -/
def Clean (m : NodeMembers) : Prop :=
  ∀ member ∈ m.members, member.2.Clean

variable {α : Type} {m : NodeMembers}

@[simp] theorem faultFree_get {name : String} {default : α}
    {reader : Reading → Except DecodeError α} (hreader : ∀ r, FaultFree (reader r)) :
    FaultFree (m.get name default reader).result :=
  Fields.faultFree_member (faultFree_ok default) fun r _ => hreader r

@[simp] theorem faultFree_value (name : String) : FaultFree (m.value name).result := by
  simp [value]

@[simp] theorem faultFree_values (name : String) : FaultFree (m.values name).result := by
  refine faultFree_get fun r => Reading.faultFree_orElse _ (Reading.faultFree_listOf ?_)
  simp

@[simp] theorem faultFree_text (name : String) : FaultFree (m.text name).result := by
  simp [text]

@[simp] theorem faultFree_text? (name : String) : FaultFree (m.text? name).result := by
  simp [text?]

@[simp] theorem faultFree_texts (name : String) : FaultFree (m.texts name).result := by
  refine faultFree_get fun r => Reading.faultFree_orElse _ (Reading.faultFree_listOf ?_)
  simp

@[simp] theorem faultFree_flag (name : String) : FaultFree (m.flag name).result := by
  simp [flag]

@[simp] theorem faultFree_records {name : String} {expected : Expected}
    {record : Fields → Placed α} (h : ∀ fields, FaultFree (record fields).result) :
    FaultFree (m.records name expected record).result := by
  refine faultFree_get fun r => Reading.faultFree_orElse _ (Reading.faultFree_listOf ?_)
  simp [h]

/-- A reader of nodes needs clean members. -/
theorem Clean.faultFree_member (hm : m.Clean) {name : String} {absent : Except DecodeError α}
    {reader : Reading → Except DecodeError α} (habsent : FaultFree absent)
    (hreader : ∀ r : Reading, r.Clean → FaultFree (reader r)) :
    FaultFree (Fields.member m.members name absent reader).result := by
  refine Fields.faultFree_member habsent fun r hr => ?_
  obtain ⟨member, hmember, rfl⟩ := mem_of_mem_valuesOf hr
  exact hreader member.2 (hm member hmember)

@[simp] theorem Clean.faultFree_node (hm : m.Clean) (name : String) :
    FaultFree (m.node name).result :=
  hm.faultFree_member (by simp) fun _ hr => hr.1

@[simp] theorem Clean.faultFree_node? (hm : m.Clean) (name : String) :
    FaultFree (m.node? name).result :=
  hm.faultFree_member (by simp) fun _ hr => Reading.faultFree_optional hr.1

@[simp] theorem Clean.faultFree_nodes (hm : m.Clean) (name : String) :
    FaultFree (m.nodes name).result :=
  hm.faultFree_member (by simp) fun _ hr =>
    Reading.faultFree_orElse _ (Reading.faultFree_listOf hr.2)

@[simp] theorem Clean.faultFree_nodes? (hm : m.Clean) (name : String) :
    FaultFree (m.nodes? name).result :=
  hm.faultFree_member (by simp) fun _ hr =>
    Reading.faultFree_optional (Reading.faultFree_listOf hr.2)

theorem Clean.faultFree_body (hm : m.Clean) (kind : Kind) : FaultFree (m.body kind).result := by
  have hoptions (r : Reading) :
      FaultFree (r.orElse {} (Fields.read .importOptions Fields.importOptions)) := by simp
  -- a body is a constructor, mapped over the first member and applied to the others
  cases kind <;> simp only [body] <;> (repeat with_reducible apply Placed.faultFree_seq) <;>
    simp [hm, hoptions]

theorem Clean.faultFree_decode (hm : m.Clean) : FaultFree m.decode := by
  refine FaultFree.bind (by simp) fun index => FaultFree.bind ?_ fun kind =>
    (hm.faultFree_body kind).bind fun body => faultFree_ok _
  exact hm.faultFree_member (by simp) fun r _ => r.faultFree_kind

end NodeMembers

mutual

/-- What a value is annotated with is free of faults of the text. -/
theorem clean_ofJson : (j : Json) → (Reading.ofJson j).Clean
  | .null | .flag _ | .number _ | .text _ => ⟨Reading.faultFree_wrongType _ _, nofun⟩
  | .array items => by
    refine ⟨Reading.faultFree_wrongType _ _, fun annotated h => ?_⟩
    cases h
    exact fun item hitem => (clean_ofItems items item hitem).1
  | .object members =>
    ⟨NodeMembers.Clean.faultFree_decode (clean_ofMembers members), nofun⟩

/-- The same for the items of an array. -/
theorem clean_ofItems : (items : List Json) → ∀ r ∈ Reading.ofItems items, r.Clean
  | [], _, h => nomatch h
  | j :: items, r, h => by
    obtain rfl | h := List.mem_cons.1 h
    · exact clean_ofJson j
    · exact clean_ofItems items r h

/-- The same for the members of an object. -/
theorem clean_ofMembers : (members : List (String × Json)) →
    ∀ member ∈ Reading.ofMembers members, member.2.Clean
  | [], _, h => nomatch h
  | (name, j) :: members, member, h => by
    obtain rfl | h := List.mem_cons.1 h
    · exact clean_ofJson j
    · exact clean_ofMembers members member h

end

/-- Decoding a value does not report a fault of the text. -/
theorem faultFree_ofJson (j : Json) : FaultFree (Node.ofJson j) :=
  (clean_ofJson j).1

/-! ## Texts -/

/-- What the values of a name that may stand there once are read as. -/
def once {α β : Type} (name : String) (absent : Except DecodeError α)
    (reader : β → Except DecodeError α) : List β → Except DecodeError α
  | [] => absent
  | [b] => reader b
  | b :: _ :: _ => do
    let _ ← reader b
    .error (.duplicate name)

theorem result_member {α : Type} {members : List (String × Reading)} {name : String}
    {absent : Except DecodeError α} {reader : Reading → Except DecodeError α} :
    (Fields.member members name absent reader).result
      = once name absent reader (valuesOf name members) := by
  have hput (place : Nat) (x : Except DecodeError α) : (Placed.put place x).result = x := by
    cases x <;> rfl
  rw [← map_snd_occurrences name 0, Fields.member]
  split
  · next hnone => simp [hnone, hput, once]
  · next hone => simp [hone, hput, once]
  · next place r again other rest hmore =>
    rw [hmore]
    simp only [List.map_cons, once]
    split
    · next e he => rw [he, hput]; rfl
    · next a ha => rw [ha, hput]; rfl

theorem once_map {α β γ : Type} {name : String} {absent : Except DecodeError α}
    {reader : γ → Except DecodeError α} {f : β → γ} (items : List β) :
    once name absent reader (items.map f) = once name absent (fun b => reader (f b)) items := by
  rcases items with _ | ⟨b, _ | ⟨c, items⟩⟩ <;> rfl

/-- The offset of an object, as its members tell it. -/
def indexOf (members : List (String × Json)) : Except DecodeError (Option Nat) :=
  once "index" (.ok none) (fun j => (Reading.ofJson j).optional Reading.offset)
    (valuesOf "index" members)

theorem readMembers_cons_of_ne {levels : Nat} {seen : Bool} {name : String} {draft : Draft}
    {drafts : List (Key × Draft)} {j : Json} (hname : name ≠ "index")
    (hj : draft.settle levels = .ok j) :
    readMembers levels seen ((.ok name, draft) :: drafts) =
      ((name, j) :: ·) <$> readMembers levels seen drafts := by
  simp only [readMembers, orMalformed, hj, Except.mapError, bind, Except.bind, if_neg hname]
  cases readMembers levels seen drafts <;> rfl

theorem readMembers_cons_index {levels : Nat} {draft : Draft} {drafts : List (Key × Draft)}
    {j : Json} (hj : draft.settle levels = .ok j) :
    readMembers levels false ((.ok "index", draft) :: drafts) =
      (Reading.ofJson j).optional Reading.offset >>= fun _ =>
        (("index", j) :: ·) <$> readMembers levels true drafts := by
  simp only [readMembers, orMalformed, hj, offsetOfDraft_of_settle hj, Except.mapError, bind,
    Except.bind, if_pos]
  cases readMembers levels true drafts <;> rfl

/-- After an offset, the members of a value are read unless there is another. -/
theorem readMembers_true_of_settle {levels : Nat} {drafts : List (Key × Draft)}
    {members : List (String × Json)} (h : Draft.settleMembers levels drafts = .ok members) :
    readMembers levels true drafts =
      if valuesOf "index" members = [] then .ok members else .error (.duplicate "index") := by
  induction drafts generalizing members with
  | nil =>
    cases h
    rfl
  | cons entry drafts ih =>
    obtain ⟨key, draft⟩ := entry
    obtain ⟨name, j, rest, rfl, hj, hrest, rfl⟩ := settleMembers_cons_eq_ok_iff.1 h
    rw [valuesOf_cons]
    by_cases hname : name = "index"
    · subst hname
      rfl
    · rw [readMembers_cons_of_ne hname hj, ih hrest, if_neg hname]
      split <;> rfl

/-- The members of a value are read when they tell an offset. -/
theorem readMembers_false_of_settle {levels : Nat} {drafts : List (Key × Draft)}
    {members : List (String × Json)} (h : Draft.settleMembers levels drafts = .ok members) :
    readMembers levels false drafts = do
      let _ ← indexOf members
      return members := by
  induction drafts generalizing members with
  | nil =>
    cases h
    rfl
  | cons entry drafts ih =>
    obtain ⟨key, draft⟩ := entry
    obtain ⟨name, j, rest, rfl, hj, hrest, rfl⟩ := settleMembers_cons_eq_ok_iff.1 h
    rw [indexOf, valuesOf_cons]
    by_cases hname : name = "index"
    · subst hname
      rw [readMembers_cons_index hj, readMembers_true_of_settle hrest, if_pos rfl]
      -- the first offset is looked at before the second is found
      cases valuesOf "index" rest with
      | nil => rfl
      | cons other others =>
        rw [if_neg (List.cons_ne_nil other others), once]
        cases (Reading.ofJson j).optional Reading.offset <;> rfl
    · rw [readMembers_cons_of_ne hname hj, ih hrest, if_neg hname, indexOf]
      cases once "index" (.ok none) (fun j => (Reading.ofJson j).optional Reading.offset)
        (valuesOf "index" rest) <;> rfl

theorem decode_eq_bind_indexOf (members : List (String × Json)) :
    ∃ f, NodeMembers.decode ⟨Reading.ofMembers members⟩ = indexOf members >>= f := by
  rw [NodeMembers.decode, NodeMembers.get, result_member, valuesOf_ofMembers, once_map]
  exact ⟨_, rfl⟩

/-- A draft that settles decodes as its value does, errors included. -/
theorem ofDraft_of_settle {levels : Nat} {draft : Draft} {j : Json}
    (h : draft.settle levels = .ok j) : Node.ofDraft levels draft = Node.ofJson j := by
  cases draft with
  | object drafts ending =>
    cases levels with
    | zero => cases h
    | succ levels =>
      obtain ⟨rfl, members, hmembers, rfl⟩ := settle_object_eq_ok_iff.1 h
      obtain ⟨f, hf⟩ := decode_eq_bind_indexOf members
      show (readMembers levels false drafts >>= fun members =>
        NodeMembers.decode ⟨Reading.ofMembers members⟩) = NodeMembers.decode _
      -- the offset is looked at twice, with the same result
      rw [readMembers_false_of_settle hmembers, hf]
      cases hindex : indexOf members with
      | error e => rfl
      | ok index =>
        show NodeMembers.decode _ = _
        rw [hf, hindex]
  | _ =>
    rw [Node.ofDraft, found_of_settle h]
    · cases j with
      | object members =>
        obtain ⟨drafts, ending, hdraft⟩ := exists_object_of_settle h
        cases hdraft
      | _ => rfl
    · intro _ _ hobject
      cases hobject

/-- Levels that a draft does not need do not change what it decodes to. -/
theorem ofDraft_succ_of_depth_le {levels : Nat} {draft : Draft} (h : draft.depth ≤ levels) :
    Node.ofDraft (levels + 1) draft = Node.ofDraft levels draft := by
  have hmembers {levels : Nat} {seen : Bool} {members : List (Key × Draft)}
      (h : Draft.depthOfMembers members ≤ levels) :
      readMembers (levels + 1) seen members = readMembers levels seen members := by
    induction members generalizing seen with
    | nil => rfl
    | cons member members ih =>
      obtain ⟨hmember, hrest⟩ := max_le_iff.1 h
      simp only [readMembers, Json.settle_succ_of_depth_le _ _ hmember, ih hrest]
  cases draft with
  | object members ending =>
    cases levels with
    | zero => exact absurd h (by simp [Draft.depth])
    | succ levels => simp only [Node.ofDraft, hmembers (Nat.le_of_succ_le_succ h)]
  | _ => simp only [Node.ofDraft]

end ImportSweep.Tree
