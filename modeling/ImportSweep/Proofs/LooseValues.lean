import ImportSweep.Proofs.Contents

/-!
# Loosely typed values

A member that may hold anything is decoded without loss. `Mirrors` says what a JSON value is as a
loosely typed one: arrays are lists item by item, and objects are the nodes that they are by
themselves. There is such a value exactly when each object that is reached through arrays is a node
(`exists_mirrors_iff`), and its nodes are the nodes of these objects (`Mirrors.forall₂_nodes`).

The rest is about where such a value stands. A `Hole` is a reader of something with one loosely
typed value in it, which is given what stands there. Records, lists and members with a hole are
built from the hole itself; `NodeSpot` is a hole in the object of a node, and `ofJson_loose_value`
says what decoding does there.
-/

namespace ImportSweep

mutual

/-- The objects that are reached from a value through arrays only, in the order in which they
stand in it. -/
def Json.objects : Json → List Json
  | .object members => [.object members]
  | .array items => Json.objectsOf items
  | .null | .flag _ | .number _ | .text _ => []

/-- The objects that are reached from the items of an array. -/
def Json.objectsOf : List Json → List Json
  | [] => []
  | j :: js => j.objects ++ Json.objectsOf js

end

namespace Tree

/-! ## Mirrored values -/

mutual

/-- The loosely typed value is the JSON value, with the node that it is for each object. -/
inductive Mirrors : Json → Value → Prop where
  /-- Nothing is nothing. -/
  | null : Mirrors .null .null
  /-- A truth value is the same truth value. -/
  | flag (b : Bool) : Mirrors (.flag b) (.flag b)
  /-- A number is itself as a floating-point number. -/
  | number (x : Json.Number) : Mirrors (.number x) (.number x.toFloat)
  /-- A text is the same text. -/
  | text (s : String) : Mirrors (.text s) (.text s)
  /-- An array is the list of its items. -/
  | array {js : List Json} {vs : List Value} (items : MirrorsAll js vs) :
    Mirrors (.array js) (.list vs)
  /-- An object is the node that it is by itself. -/
  | object {members : List (String × Json)} {n : Node}
    (decoded : Node.ofJson (.object members) = .ok n) : Mirrors (.object members) (.node n)

/-- The loosely typed values are the JSON values, one by one. -/
inductive MirrorsAll : List Json → List Value → Prop where
  | nil : MirrorsAll [] []
  | cons {j : Json} {js : List Json} {v : Value} {vs : List Value} (first : Mirrors j v)
    (others : MirrorsAll js vs) : MirrorsAll (j :: js) (v :: vs)

end

mutual

theorem Mirrors.value?_eq {j : Json} {v : Value} :
    Mirrors j v → (Reading.ofJson j).value? = some v
  | .null | .flag _ | .number _ | .text _ => rfl
  | .array items => by
    rw [Reading.ofJson, Reading.value?, items.values?_eq]
    rfl
  | .object decoded => by
    rw [Node.ofJson, Reading.ofJson, Reading.node] at decoded
    rw [Reading.ofJson, Reading.value?, decoded]
    rfl

theorem MirrorsAll.values?_eq {js : List Json} {vs : List Value} :
    MirrorsAll js vs → Reading.values? (Reading.ofItems js) = some vs
  | .nil => rfl
  | .cons first others => by
    rw [Reading.ofItems, Reading.values?, first.value?_eq, others.values?_eq]
    rfl

end

mutual

theorem mirrors_of_value? : (j : Json) → {v : Value} → (Reading.ofJson j).value? = some v →
    Mirrors j v
  | .null, _, h => by
    cases h
    exact .null
  | .flag b, _, h => by
    cases h
    exact .flag b
  | .number x, _, h => by
    cases h
    exact .number x
  | .text s, _, h => by
    cases h
    exact .text s
  | .array items, _, h => by
    obtain ⟨vs, hvs, rfl⟩ := Option.map_eq_some_iff.1 h
    exact .array (mirrorsAll_of_values? items hvs)
  | .object members, _, h => by
    obtain ⟨n, hn, rfl⟩ := Option.map_eq_some_iff.1 h
    exact .object (toOption_eq_some_iff.1 hn)

theorem mirrorsAll_of_values? : (js : List Json) → {vs : List Value} →
    Reading.values? (Reading.ofItems js) = some vs → MirrorsAll js vs
  | [], _, h => by
    cases h
    exact .nil
  | j :: js, _, h => by
    obtain ⟨v, hv, h⟩ := Option.bind_eq_some_iff.1 h
    obtain ⟨vs, hvs, h⟩ := Option.bind_eq_some_iff.1 h
    cases h
    exact .cons (mirrors_of_value? j hv) (mirrorsAll_of_values? js hvs)

end

/-- A value is read as a loosely typed one exactly when that one mirrors it. -/
theorem value_eq_ok_iff_mirrors {j : Json} {v : Value} :
    (Reading.ofJson j).value = .ok v ↔ Mirrors j v := by
  rw [Agrees.value_eq_ok_iff]
  exact ⟨mirrors_of_value? j, Mirrors.value?_eq⟩

mutual

/-- What is decoded are the nodes of the objects, each once and in order. -/
theorem Mirrors.forall₂_nodes {j : Json} {v : Value} :
    Mirrors j v → List.Forall₂ (fun o n => Node.ofJson o = .ok n) j.objects v.nodes
  | .null | .flag _ | .number _ | .text _ => .nil
  | .array items => items.forall₂_nodes
  | .object decoded => .cons decoded .nil

theorem MirrorsAll.forall₂_nodes {js : List Json} {vs : List Value} :
    MirrorsAll js vs →
      List.Forall₂ (fun o n => Node.ofJson o = .ok n) (Json.objectsOf js) (Value.nodesOf vs)
  | .nil => .nil
  | .cons first others => List.rel_append first.forall₂_nodes others.forall₂_nodes

end

mutual

/-- A value is mirrored as soon as its objects are nodes. -/
theorem exists_mirrors : (j : Json) → (∀ o ∈ j.objects, ∃ n, Node.ofJson o = .ok n) →
    ∃ v, Mirrors j v
  | .null, _ => ⟨_, .null⟩
  | .flag b, _ => ⟨_, .flag b⟩
  | .number x, _ => ⟨_, .number x⟩
  | .text s, _ => ⟨_, .text s⟩
  | .array items, h => by
    obtain ⟨vs, hvs⟩ := exists_mirrorsAll items h
    exact ⟨.list vs, .array hvs⟩
  | .object members, h => by
    obtain ⟨n, hn⟩ := h (.object members) (List.mem_singleton_self _)
    exact ⟨.node n, .object hn⟩

theorem exists_mirrorsAll : (js : List Json) →
    (∀ o ∈ Json.objectsOf js, ∃ n, Node.ofJson o = .ok n) → ∃ vs, MirrorsAll js vs
  | [], _ => ⟨[], .nil⟩
  | j :: js, h => by
    obtain ⟨v, hv⟩ := exists_mirrors j fun o ho => h o (List.mem_append_left _ ho)
    obtain ⟨vs, hvs⟩ := exists_mirrorsAll js fun o ho => h o (List.mem_append_right _ ho)
    exact ⟨v :: vs, .cons hv hvs⟩

end

theorem exists_mirrors_iff {j : Json} :
    (∃ v, Mirrors j v) ↔ ∀ o ∈ j.objects, ∃ n, Node.ofJson o = .ok n := by
  constructor
  · rintro ⟨v, hv⟩
    exact exists_mapM_eq_ok_iff.1 ⟨v.nodes, mapM_eq_ok_iff.2 hv.forall₂_nodes⟩
  · exact exists_mirrors j

/-! ## Readers of something with a hole -/

/-- A reader of something that has a hole for a loosely typed value. It is given what stands in the
hole: what it reads has the value that this mirrors, and with another value in the hole it reads the
same but for that value. -/
structure Hole {ε α : Type} (reader : Json → Except ε α) (get : α → Option Value)
    (set : α → Value → α) : Prop where
  /-- What stands in the hole is read. -/
  got : ∀ {j a}, reader j = .ok a → ∃ v, get a = some v ∧ Mirrors j v
  /-- What else is read does not depend on it. -/
  put : ∀ {j a j' v}, reader j = .ok a → Mirrors j' v → reader j' = .ok (set a v)

theorem orElse_listOf_array {α : Type} (item : Reading → Except DecodeError α) (items : List Json) :
    Reading.orElse [] (Reading.listOf item) (Reading.ofJson (.array items)) =
      (items.map Reading.ofJson).mapM item := by
  rw [Reading.ofJson, ofItems_eq_map]
  show (do return (← some <$> (items.map Reading.ofJson).mapM item).getD []) = _
  cases (items.map Reading.ofJson).mapM item <;> rfl

theorem modify_append_cons {α : Type} (f : α → α) (before after : List α) (a : α) :
    (before ++ a :: after).modify before.length f = before ++ f a :: after := by
  induction before with
  | nil => rfl
  | cons b before ih =>
    rw [List.cons_append, List.length_cons, List.modify_succ_cons, ih, List.cons_append]

namespace Hole

variable {ε α : Type}

/-- The hole itself. -/
theorem value : Hole (fun j => (Reading.ofJson j).value) some (fun _ v => v) where
  got h := ⟨_, rfl, value_eq_ok_iff_mirrors.1 h⟩
  put _ h := value_eq_ok_iff_mirrors.2 h

/-- An item of a list has the hole. -/
theorem mapM {f : Json → Json} {reader : Reading → Except ε α} {get : α → Option Value}
    {set : α → Value → α} (h : Hole (fun j => reader (Reading.ofJson (f j))) get set)
    (before after : List Json) :
    Hole (fun j => ((before ++ f j :: after).map Reading.ofJson).mapM reader)
      (fun as => as[before.length]?.bind get) (fun as v => as.modify before.length (set · v)) where
  got := by
    intro j as has
    rw [List.map_append, List.map_cons, mapM_append_cons_eq_ok_iff] at has
    obtain ⟨bs, b, cs, hbs, hb, -, rfl⟩ := has
    have hlength : before.length = bs.length := by
      simpa using (mapM_eq_ok_iff.1 hbs).length_eq
    obtain ⟨v, hv, hmirrors⟩ := h.got hb
    refine ⟨v, ?_, hmirrors⟩
    rw [hlength]
    simpa using hv
  put := by
    intro j as j' v has hv
    rw [List.map_append, List.map_cons, mapM_append_cons_eq_ok_iff] at has ⊢
    obtain ⟨bs, b, cs, hbs, hb, hcs, rfl⟩ := has
    have hlength : before.length = bs.length := by
      simpa using (mapM_eq_ok_iff.1 hbs).length_eq
    exact ⟨bs, set b v, cs, hbs, h.put hb hv, hcs, by rw [hlength, modify_append_cons]⟩

/-- A member of an object has the hole. -/
theorem member {f : Json → Json} {reader : Reading → Except DecodeError α}
    {get : α → Option Value} {set : α → Value → α}
    (h : Hole (fun j => reader (Reading.ofJson (f j))) get set)
    (before after : List (String × Json)) (name : String) (absent : Except DecodeError α) :
    Hole (fun j =>
      (Fields.member (Reading.ofMembers (before ++ (name, f j) :: after)) name absent reader).run)
      get set where
  got := by
    intro j a ha
    exact h.got (member_append_cons_eq_ok_iff.1 ha).2
  put := by
    intro j a j' v ha hv
    obtain ⟨halone, ha⟩ := member_append_cons_eq_ok_iff.1 ha
    exact member_append_cons_eq_ok_iff.2 ⟨halone, h.put ha hv⟩

/-- A list as it stands in a member of a node has the hole in an item. -/
theorem list {f : Json → Json} {item : Reading → Except DecodeError α} {get : α → Option Value}
    {set : α → Value → α} (h : Hole (fun j => item (Reading.ofJson (f j))) get set)
    (left right : List Json) (before after : List (String × Json)) (name : String) :
    Hole (fun j =>
      (Fields.member
        (Reading.ofMembers (before ++ (name, .array (left ++ f j :: right)) :: after)) name (.ok [])
        (Reading.orElse [] (Reading.listOf item))).run)
      (fun as => as[left.length]?.bind get) (fun as v => as.modify left.length (set · v)) := by
  have hlist := h.mapM left right
  simp only [← orElse_listOf_array] at hlist
  exact hlist.member before after name (.ok [])

end Hole

/-! ## Records with a hole -/

theorem run_argument_eq_ok_iff {fields : Fields} {argument : Argument} :
    fields.argument.run = .ok argument ↔
      (fields.get 0 "name" none (Reading.optional Reading.plainText)).run = .ok argument.name ∧
        (fields.get 1 "value" .null Reading.value).run = .ok argument.value ∧
        ∃ u, (fields.atMost 2).run = .ok u := by
  obtain ⟨name, value⟩ := argument
  rw [Fields.argument]
  simp [Placed.run_seqLeft_eq_ok_iff, Placed.run_seq_eq_ok_iff, Placed.run_map_eq_ok_iff, and_assoc]

theorem run_parameter_eq_ok_iff {fields : Fields} {parameter : Parameter} :
    fields.parameter.run = .ok parameter ↔
      (fields.get 0 "name" none (Reading.optional Reading.plainText)).run = .ok parameter.name ∧
        (fields.get 1 "value" .null Reading.value).run = .ok parameter.value ∧
        (fields.get 2 "variadic" false (Reading.orElse false Reading.truth)).run =
          .ok parameter.variadic ∧
        ∃ u, (fields.atMost 3).run = .ok u := by
  obtain ⟨name, value, variadic⟩ := parameter
  rw [Fields.parameter]
  simp [Placed.run_seqLeft_eq_ok_iff, Placed.run_seq_eq_ok_iff, Placed.run_map_eq_ok_iff, and_assoc,
    -Bool.exists_bool]

/-- The loosely typed value of a record is its second field, with the name `value`. -/
theorem Record.eq_value_of_loose {form : Record} {k : Member} {i : Nat}
    (hk : form.members[i]? = some k) (hsite : k.site = .loose) : i = 1 ∧ k.name = "value" := by
  have hall : ∀ entry ∈ form.members.zipIdx,
      entry.1.site = .loose → entry.2 = 1 ∧ entry.1.name = "value" := by
    cases form <;> decide
  exact hall (k, i) (List.mk_mem_zipIdx_iff_getElem?.2 hk) hsite

/-- A spot in a record: the value of a member, or an item where the record is an array. -/
inductive RecordSpot where
  /-- The value of the member `name`, with the other members before and after it. -/
  | named (name : String) (before after : List (String × Json))
  /-- An item, with those before and after it. -/
  | numbered (before after : List Json)

namespace RecordSpot

/-- The record with a value in the spot. -/
def fill : RecordSpot → Json → Json
  | named name before after, j => .object (before ++ (name, j) :: after)
  | numbered before after, j => .array (before ++ j :: after)

/-- The fields of the record with a value in the spot. -/
def fields : RecordSpot → Json → Fields
  | named name before after, j => .members (Reading.ofMembers (before ++ (name, j) :: after))
  | numbered before after, j => .items ((before ++ j :: after).map Reading.ofJson)

/-- A loosely typed value is due in the spot. -/
def IsLoose (form : Record) : RecordSpot → Prop
  | named name _ _ => ∃ k ∈ form.members, k.name = name ∧ k.site = .loose
  | numbered before _ => ∃ k, form.members[before.length]? = some k ∧ k.site = .loose

theorem read_fill {α : Type} (spot : RecordSpot) (j : Json) (expected : Expected)
    (record : Fields → Placed α) :
    Fields.read expected record (Reading.ofJson (spot.fill j)) =
      (record (spot.fields j)).result := by
  cases spot with
  | named => rfl
  | numbered before after =>
    rw [fill, Reading.ofJson, ofItems_eq_map]
    rfl

section

variable {form : Record} {spot : RecordSpot}

/-- The field `value` of a record has the hole. -/
theorem hole_value (h : spot.IsLoose form) :
    Hole (fun j => ((spot.fields j).get 1 "value" .null Reading.value).run) some
      (fun _ v => v) := by
  -- The field is found by its name in an object and by its position in an array.
  cases spot with
  | named name before after =>
    obtain ⟨k, hk, rfl, hsite⟩ := h
    obtain ⟨i, hi⟩ := List.mem_iff_getElem?.1 hk
    obtain ⟨-, hname⟩ := Record.eq_value_of_loose hi hsite
    rw [hname]
    exact Hole.value.member before after "value" (.ok .null)
  | numbered before after =>
    obtain ⟨k, hk, hsite⟩ := h
    obtain ⟨first, rfl⟩ := List.length_eq_one_iff.1 (Record.eq_value_of_loose hk hsite).1
    constructor
    · intro j a ha
      exact Hole.value.got (Placed.run_put_eq_ok_iff.1 ha)
    · intro j a j' v ha hv
      exact Placed.run_put_eq_ok_iff.2 (Hole.value.put (Placed.run_put_eq_ok_iff.1 ha) hv)

/-- The other fields of a record do not depend on what stands in the spot. -/
theorem run_get_fields {α : Type} {position : Nat} {name : String} {default a : α}
    {reader : Reading → Except DecodeError α} (h : spot.IsLoose form) (hposition : position ≠ 1)
    (hname : "value" ≠ name) {j : Json} (j' : Json)
    (ha : ((spot.fields j).get position name default reader).run = .ok a) :
    ((spot.fields j').get position name default reader).run = .ok a := by
  cases spot with
  | named key before after =>
    obtain ⟨k, hk, rfl, hsite⟩ := h
    obtain ⟨i, hi⟩ := List.mem_iff_getElem?.1 hk
    obtain ⟨-, hkey⟩ := Record.eq_value_of_loose hi hsite
    rw [fields, Fields.get, member_eq_ok_iff, valuesOf_ofMembers,
      valuesOf_append_cons_of_ne (hkey ▸ hname)] at ha ⊢
    exact ha
  | numbered before after =>
    obtain ⟨k, hk, hsite⟩ := h
    obtain ⟨first, rfl⟩ := List.length_eq_one_iff.1 (Record.eq_value_of_loose hk hsite).1
    rcases position with _ | _ | position
    · exact ha
    · exact absurd rfl hposition
    · exact ha

theorem atMost_fields (spot : RecordSpot) (j j' : Json) (count : Nat) :
    (spot.fields j).atMost count = (spot.fields j').atMost count := by
  cases spot with
  | named => rfl
  | numbered before after => simp [fields, Fields.atMost]

/-- An argument of a mixin call has the hole. -/
theorem hole_argument (h : spot.IsLoose form) :
    Hole (fun j => Fields.read .argument Fields.argument (Reading.ofJson (spot.fill j)))
      (fun argument => some argument.value) (fun argument v => { argument with value := v }) := by
  constructor
  · intro j argument hargument
    rw [read_fill, Placed.result_eq_ok_iff, run_argument_eq_ok_iff] at hargument
    exact (hole_value h).got hargument.2.1
  · intro j argument j' v hargument hv
    rw [read_fill, Placed.result_eq_ok_iff, run_argument_eq_ok_iff] at hargument ⊢
    obtain ⟨hname, hvalue, hcount⟩ := hargument
    rw [atMost_fields spot j j'] at hcount
    exact ⟨run_get_fields h (by decide) (by decide) j' hname, (hole_value h).put hvalue hv, hcount⟩

/-- A parameter of a mixin definition has the hole. -/
theorem hole_parameter (h : spot.IsLoose form) :
    Hole (fun j => Fields.read .parameter Fields.parameter (Reading.ofJson (spot.fill j)))
      (fun parameter => some parameter.value)
      (fun parameter v => { parameter with value := v }) := by
  constructor
  · intro j parameter hparameter
    rw [read_fill, Placed.result_eq_ok_iff, run_parameter_eq_ok_iff] at hparameter
    exact (hole_value h).got hparameter.2.1
  · intro j parameter j' v hparameter hv
    rw [read_fill, Placed.result_eq_ok_iff, run_parameter_eq_ok_iff] at hparameter ⊢
    obtain ⟨hname, hvalue, hvariadic, hcount⟩ := hparameter
    rw [atMost_fields spot j j'] at hcount
    exact ⟨run_get_fields h (by decide) (by decide) j' hname, (hole_value h).put hvalue hv,
      run_get_fields h (by decide) (by decide) j' hvariadic, hcount⟩

end

end RecordSpot

/-! ## Nodes with a hole -/

/-- A spot in the value of a member: the value itself, an item of a list, or a spot in a record of
a list. -/
inductive MemberSpot where
  /-- The value of the member. -/
  | whole
  /-- An item, with those before and after it. -/
  | item (before after : List Json)
  /-- A spot in a record, with the records before and after it. -/
  | inRecord (before after : List Json) (spot : RecordSpot)

namespace MemberSpot

/-- What the member holds with a value in the spot. -/
def fill : MemberSpot → Json → Json
  | whole, j => j
  | item before after, j => .array (before ++ j :: after)
  | inRecord before after spot, j => .array (before ++ spot.fill j :: after)

/-- The position of the spot in the list. -/
def index : MemberSpot → Nat
  | whole => 0
  | item before _ | inRecord before _ _ => before.length

/-- A loosely typed value is due in the spot. -/
def IsLoose : MemberSpot → Site → Prop
  | whole, .loose => True
  | item _ _, .list .loose => True
  | inRecord _ _ spot, .list (.record form) => spot.IsLoose form
  | _, _ => False

end MemberSpot

section

variable {spot : MemberSpot} {before after : List (String × Json)} {name : String} {c : Content}

/-- What stands in the spot is found in what the member holds. -/
theorem Content.exists_loose {j : Json} (h : spot.IsLoose c.site)
    (hc : c.IsRead ⟨Reading.ofMembers (before ++ (name, spot.fill j) :: after)⟩ name) :
    ∃ v, c.loose[spot.index]? = some v ∧ Mirrors j v := by
  -- What is due in the spot tells what the member holds.
  cases spot with
  | whole =>
    cases c with
    | value v => exact (Hole.value.member before after name (.ok .null)).got hc
    | _ => cases h
  | item left right =>
    cases c with
    | values vs =>
      obtain ⟨v, hv, hmirrors⟩ := (Hole.value.list left right before after name).got hc
      refine ⟨v, ?_, hmirrors⟩
      simpa [Content.loose, MemberSpot.index] using hv
    | _ => cases h
  | inRecord left right spot =>
    cases c with
    | arguments l =>
      obtain ⟨v, hv, hmirrors⟩ :=
        ((RecordSpot.hole_argument h).list left right before after name).got hc
      refine ⟨v, ?_, hmirrors⟩
      simpa [Content.loose, MemberSpot.index, Option.bind_eq_some_iff] using hv
    | parameters l =>
      obtain ⟨v, hv, hmirrors⟩ :=
        ((RecordSpot.hole_parameter h).list left right before after name).got hc
      refine ⟨v, ?_, hmirrors⟩
      simpa [Content.loose, MemberSpot.index, Option.bind_eq_some_iff] using hv
    | _ => cases h

/-- With another value in the spot, the member holds the same but for that value. -/
theorem Content.isRead_put {j j' : Json} {v : Value} (h : spot.IsLoose c.site)
    (hc : c.IsRead ⟨Reading.ofMembers (before ++ (name, spot.fill j) :: after)⟩ name)
    (hv : Mirrors j' v) :
    (c.put spot.index v).IsRead
      ⟨Reading.ofMembers (before ++ (name, spot.fill j') :: after)⟩ name := by
  cases spot with
  | whole =>
    cases c with
    | value => exact (Hole.value.member before after name (.ok .null)).put hc hv
    | _ => cases h
  | item left right =>
    cases c with
    | values vs =>
      rw [Content.put, List.set_eq_modify]
      exact (Hole.value.list left right before after name).put hc hv
    | _ => cases h
  | inRecord left right spot =>
    cases c with
    | arguments => exact ((RecordSpot.hole_argument h).list left right before after name).put hc hv
    | parameters =>
      exact ((RecordSpot.hole_parameter h).list left right before after name).put hc hv
    | _ => cases h

end

/-- A spot in the object of a node: a spot in the member `name`, with the other members before and
after it. -/
structure NodeSpot where
  /-- The members before. -/
  before : List (String × Json)
  /-- The name of the member. -/
  name : String
  /-- The spot in its value. -/
  spot : MemberSpot
  /-- The members after. -/
  after : List (String × Json)

/-- The object with a value in the spot. -/
def NodeSpot.fill (s : NodeSpot) (j : Json) : Json :=
  .object (s.before ++ (s.name, s.spot.fill j) :: s.after)

/-- A loosely typed value is due in the spot, in a node of the given kind. -/
def NodeSpot.IsLoose (s : NodeSpot) (kind : Kind) : Prop :=
  ∃ k ∈ kind.members, k.name = s.name ∧ s.spot.IsLoose k.site

section

variable {s : NodeSpot} {n n' : Node} {j j' : Json} {v : Value}

/-- Members other than the one with the spot do not depend on what stands in it. -/
theorem NodeSpot.valuesOf_of_ne {name : String} (h : s.name ≠ name) (j j' : Json) :
    valuesOf name (Reading.ofMembers (s.before ++ (s.name, s.spot.fill j) :: s.after)) =
      valuesOf name (Reading.ofMembers (s.before ++ (s.name, s.spot.fill j') :: s.after)) := by
  rw [valuesOf_ofMembers, valuesOf_ofMembers, valuesOf_append_cons_of_ne h,
    valuesOf_append_cons_of_ne h]

/-- What stands in the spot is found in the node. -/
theorem NodeSpot.exists_looseOf (h : s.IsLoose n.kind) (hn : Node.ofJson (s.fill j) = .ok n) :
    ∃ v, (n.body.looseOf s.name)[s.spot.index]? = some v ∧ Mirrors j v := by
  obtain ⟨k, hk, hname, hloose⟩ := h
  have hbody := body_eq_ok_iff.1 (decode_eq_ok_iff.1 hn).2.2
  obtain ⟨c, hc, hsite, honly⟩ := Body.exists_content hk
  rw [hname] at hc honly
  obtain ⟨v, hv, hmirrors⟩ := Content.exists_loose (hsite ▸ hloose) (hbody _ hc)
  refine ⟨v, ?_, hmirrors⟩
  rw [Body.looseOf, honly, List.flatMap_singleton]
  exact hv

/-- With another value in the spot, the node is the same but for that value. -/
theorem NodeSpot.ofJson_put (h : s.IsLoose n.kind) (hn : Node.ofJson (s.fill j) = .ok n)
    (hv : Mirrors j' v) :
    Node.ofJson (s.fill j') =
      .ok { n with body := n.body.put s.name s.spot.index v } := by
  obtain ⟨k, hk, hname, hloose⟩ := h
  obtain ⟨htype, hindex⟩ := ne_of_mem_members hk
  rw [hname] at htype hindex
  obtain ⟨hreadIndex, hreadType, hbody⟩ := decode_eq_ok_iff.1 hn
  refine decode_eq_ok_iff.2 ⟨?_, ?_, ?_⟩
  · rw [NodeMembers.get, member_eq_ok_iff, s.valuesOf_of_ne hindex j' j]
    exact member_eq_ok_iff.1 hreadIndex
  · rw [member_eq_ok_iff, s.valuesOf_of_ne htype j' j, Node.kind, Body.kind_put]
    exact member_eq_ok_iff.1 hreadType
  · refine body_eq_ok_iff.2 fun changed hchanged => ?_
    rw [Body.contents_put] at hchanged
    obtain ⟨⟨key, c⟩, hc, rfl⟩ := List.mem_map.1 hchanged
    have hread := body_eq_ok_iff.1 hbody _ hc
    -- Only the member with the spot is read from another value.
    by_cases hkey : key = s.name
    · subst hkey
      have hsite : c.site = k.site := Body.site_eq hk (hname ▸ hc)
      simp only [if_true]
      exact Content.isRead_put (hsite ▸ hloose) hread hv
    · simp only [hkey, if_false]
      exact (Content.isRead_congr (s.valuesOf_of_ne (Ne.symm hkey) j' j)).2 hread

/-- The kind of a node does not depend on a loosely typed value in it. -/
theorem NodeSpot.kind_eq (h : s.IsLoose n.kind) (hn : Node.ofJson (s.fill j) = .ok n)
    (hn' : Node.ofJson (s.fill j') = .ok n') : n'.kind = n.kind := by
  obtain ⟨k, hk, hname, -⟩ := h
  obtain ⟨htype, -⟩ := ne_of_mem_members hk
  obtain ⟨-, hread, -⟩ := decode_eq_ok_iff.1 hn
  obtain ⟨-, hread', -⟩ := decode_eq_ok_iff.1 hn'
  rw [member_eq_ok_iff, s.valuesOf_of_ne (hname ▸ htype) j j', ← member_eq_ok_iff] at hread
  exact Except.ok.inj (hread'.symm.trans hread)

end

/-- Let an object be a node with some value in a spot where a loosely typed value is due. With
another value there it is a node exactly when each object that is reached from that value through
arrays is a node by itself. What is then decoded there mirrors the value, the rest of the node is
the same, and the nodes that it holds are those of the objects, each once and in order. A text
that is read as such an object is decoded in the same way. -/
theorem ofJson_loose_value (s : NodeSpot) (known j : Json) (n : Node)
    (hn : Node.ofJson (s.fill known) = .ok n) (hs : s.IsLoose n.kind) :
    ((∃ n', Node.ofJson (s.fill j) = .ok n') ↔ ∀ o ∈ j.objects, ∃ c, Node.ofJson o = .ok c) ∧
      (∀ n', Node.ofJson (s.fill j) = .ok n' →
        ∃ v, (n'.body.looseOf s.name)[s.spot.index]? = some v ∧ Mirrors j v ∧
          n' = { n with body := n.body.put s.name s.spot.index v } ∧
          List.Forall₂ (fun o c => Node.ofJson o = .ok c) j.objects v.nodes) ∧
      ∀ text, Json.parse Json.nestingLimit text = .ok (s.fill j) →
        ∀ n', Node.parse text = .ok n' ↔ Node.ofJson (s.fill j) = .ok n' := by
  have hread : ∀ n', Node.ofJson (s.fill j) = .ok n' →
      ∃ v, (n'.body.looseOf s.name)[s.spot.index]? = some v ∧ Mirrors j v := by
    intro n' hn'
    rw [← NodeSpot.kind_eq hs hn hn'] at hs
    exact NodeSpot.exists_looseOf hs hn'
  refine ⟨⟨?_, ?_⟩, ?_, ?_⟩
  · rintro ⟨n', hn'⟩
    obtain ⟨v, -, hv⟩ := hread n' hn'
    exact exists_mirrors_iff.1 ⟨v, hv⟩
  · intro hobjects
    obtain ⟨v, hv⟩ := exists_mirrors_iff.2 hobjects
    exact ⟨_, NodeSpot.ofJson_put hs hn hv⟩
  · -- The object is one node only, so this is the node with the value put in.
    intro n' hn'
    obtain ⟨v, hvalue, hv⟩ := hread n' hn'
    have hput := NodeSpot.ofJson_put hs hn hv
    exact ⟨v, hvalue, hv, Except.ok.inj (hn'.symm.trans hput), hv.forall₂_nodes⟩
  · intro text htext n'
    rw [Node.parse_eq_ok_iff, htext]
    simp

/-- The value of an argument in the call of a mixin. -/
def argumentSpot : NodeSpot where
  before := [("type", .text "MixinCall"), ("selector", .object [("type", .text "Selector")])]
  name := "arguments"
  spot := .inRecord [.array [.text "@a"]] [] (.named "value" [("name", .null)] [])
  after := [("index", .number (.natural 7))]

/-- Two keywords, one of them in a list of its own, beside things that are no nodes. -/
def nestedKeywords : Json :=
  .array [.object [("type", .text "Keyword"), ("value", .text "x")], .null,
    .array [.text "y", .object [("value", .array []), ("type", .text "Keyword")]], .flag true]

theorem ofJson_loose_value_argument :
    (∃ n v, Node.ofJson (argumentSpot.fill nestedKeywords) = .ok n ∧
        (n.body.looseOf "arguments")[1]? = some v ∧ Mirrors nestedKeywords v ∧
        v.nodes.length = 2) ∧
      ¬ ∃ n, Node.ofJson (argumentSpot.fill (.array [.array [.object []]])) = .ok n := by
  have hkind : (Node.ofJson (argumentSpot.fill .null)).toOption.map Node.kind =
      some .mixinCall := by
    decide +kernel
  obtain ⟨n, hn, hmixin⟩ := Option.map_eq_some_iff.1 hkind
  rw [toOption_eq_some_iff] at hn
  have hloose : argumentSpot.IsLoose n.kind := by
    rw [hmixin]
    exact ⟨⟨"arguments", .list (.record .argument), true⟩, by decide, rfl,
      ⟨"value", .loose, true⟩, by decide, rfl, rfl⟩
  constructor
  · obtain ⟨hdecodes, hvalue, -⟩ := ofJson_loose_value argumentSpot .null nestedKeywords n hn hloose
    have hobjects :
        nestedKeywords.objects.all (fun o => (Node.ofJson o).toOption.isSome) = true := by
      decide +kernel
    obtain ⟨n', hn'⟩ := hdecodes.2 fun o ho => by
      obtain ⟨c, hc⟩ := Option.isSome_iff_exists.1 (List.all_eq_true.1 hobjects o ho)
      exact ⟨c, toOption_eq_some_iff.1 hc⟩
    obtain ⟨v, hv, hmirrors, -, hnodes⟩ := hvalue n' hn'
    exact ⟨n', v, hn', hv, hmirrors, hnodes.length_eq.symm⟩
  · obtain ⟨hdecodes, -⟩ :=
      ofJson_loose_value argumentSpot .null (.array [.array [.object []]]) n hn hloose
    rw [hdecodes]
    intro hall
    obtain ⟨c, hc⟩ := hall (.object []) (List.mem_singleton_self _)
    have hnone : (Node.ofJson (.object [])).toOption.isSome = false := by decide +kernel
    rw [hc] at hnone
    cases hnone

end Tree

end ImportSweep
