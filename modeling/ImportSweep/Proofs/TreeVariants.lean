import Mathlib.Data.List.Forall2
import Mathlib.Data.List.Perm.Basic
import ImportSweep.Proofs.DecodedMembers
import ImportSweep.Proofs.JsonText

/-!
# Variants of a tree's JSON

The JSON of a tree can be written in many ways that decode alike. `Varies` says which: at every
object that is looked into, members may change their order, members of other names may be added, and
a member that is absent may be given as `null` where `null` stands for absence. `parse_variant`
states that all variants decode to the same node.
-/

namespace ImportSweep.Tree

/-- The members that are looked at in an object. Those of a node depend on its kind. -/
def Site.members? : Site → List (String × Json) → Option (List Member)
  | .node, members | .loose, members =>
    (valuesOf "type" members).head?.bind fun j =>
      (Reading.kind (Reading.ofJson j)).toOption.map nodeMembers
  | .record form, _ => some form.members
  | .plain, _ | .list _, _ => none

/-- Members that may be added to an object: each is of a name that is not looked at, or it is
`null`, once, for a member that was absent and may be `null`. -/
structure Addable (known : List Member) (members added : List (String × Json)) : Prop where
  absent : ∀ new ∈ added, ∀ k ∈ known, k.name = new.1 →
    k.nullable = true ∧ new.2 = .null ∧ ∀ old ∈ members, old.1 ≠ new.1
  once : ∀ k ∈ known, (valuesOf k.name added).length ≤ 1

/-- Two ways to write what is due at a place. In an object, the members that are looked at vary in
place, then members are added, and then all members may change their order. -/
inductive Varies : Site → Json → Json → Prop
  | same (site : Site) (j : Json) : Varies site j j
  | array {site : Site} {items items' : List Json} (hlength : items'.length = items.length)
      (h : ∀ (i : Nat) (j j' : Json), items[i]? = some j → items'[i]? = some j' →
        Varies (site.item i) j j') :
      Varies site (.array items) (.array items')
  | object {site : Site} {members changed added members' : List (String × Json)}
      {known : List Member} (hknown : site.members? members = some known)
      (hnames : changed.map Prod.fst = members.map Prod.fst)
      (hvalues : ∀ (i : Nat) (m m' : String × Json) (k : Member), members[i]? = some m →
        changed[i]? = some m' → k ∈ known → k.name = m.1 → Varies k.site m.2 m'.2)
      (hadded : Addable known members added) (hperm : members'.Perm (changed ++ added)) :
      Varies site (.object members) (.object members')

/-- The variants of an object, with the changed members side by side with the old ones. -/
theorem Varies.of_forall₂ {site : Site} {members members' : List (String × Json)}
    (known : List Member) (changed added : List (String × Json))
    (hknown : site.members? members = some known)
    (hchanged : List.Forall₂ (fun m m' => m'.1 = m.1 ∧
      ∀ k ∈ known, k.name = m.1 → Varies k.site m.2 m'.2) members changed)
    (hadded : Addable known members added) (hperm : members'.Perm (changed ++ added)) :
    Varies site (.object members) (.object members') := by
  have hnames : changed.map Prod.fst = members.map Prod.fst := by
    clear hknown hadded hperm
    induction hchanged with
    | nil => rfl
    | cons h _ ih => rw [List.map_cons, List.map_cons, h.1, ih]
  refine .object hknown hnames (fun i m m' k hm hm' hk hname => ?_) hadded hperm
  obtain ⟨hi, rfl⟩ := List.getElem?_eq_some_iff.1 hm
  obtain ⟨hi', rfl⟩ := List.getElem?_eq_some_iff.1 hm'
  exact ((List.forall₂_iff_get.1 hchanged).2 i hi hi').2 k hk hname

/-! ## Variants agree -/

theorem length_valuesOf {α : Type} (name : String) (members : List (String × α)) :
    (valuesOf name members).length = (members.map Prod.fst).count name := by
  induction members with
  | nil => rfl
  | cons member members ih =>
    rw [valuesOf_cons, List.map_cons, List.count_cons, ← ih]
    split <;> simp_all

theorem mem_valuesOf {α : Type} {name : String} {members : List (String × α)} {a : α} :
    a ∈ valuesOf name members ↔ (name, a) ∈ members := by
  simp [valuesOf]

theorem valuesOf_perm {α : Type} (name : String) {members members' : List (String × α)}
    (h : members.Perm members') : (valuesOf name members).Perm (valuesOf name members') :=
  (h.filter _).map _

section

variable {known : List Member} {members changed added members' : List (String × Json)} {k : Member}

/-- The values of a member in a variant are those of the changed member and the added ones. -/
theorem valuesOf_variant (hperm : members'.Perm (changed ++ added)) :
    (valuesOf k.name members').Perm (valuesOf k.name changed ++ valuesOf k.name added) := by
  rw [← valuesOf_append]
  exact valuesOf_perm _ hperm

theorem countsAgree_variant (hnames : changed.map Prod.fst = members.map Prod.fst)
    (hadded : Addable known members added) (hperm : members'.Perm (changed ++ added))
    (hk : k ∈ known) :
    CountsAgree k.nullable (valuesOf k.name (Reading.ofMembers members))
      (valuesOf k.name (Reading.ofMembers members')) := by
  have hchanged : (valuesOf k.name changed).length = (valuesOf k.name members).length := by
    rw [length_valuesOf, length_valuesOf, hnames]
  have hall := valuesOf_variant (k := k) hperm
  simp only [CountsAgree, valuesOf_ofMembers, List.length_map]
  rcases hnew : valuesOf k.name added with _ | ⟨j, js⟩
  · -- nothing was added under this name
    left
    rw [hnew, List.append_nil] at hall
    rw [hall.length_eq, hchanged]
  · -- a `null` was added, and the member was absent
    have hmem : (k.name, j) ∈ added := mem_valuesOf.1 (hnew ▸ List.mem_cons_self)
    obtain ⟨hnullable, hnull, hold⟩ := hadded.absent _ hmem k hk rfl
    obtain rfl : j = .null := hnull
    have honce := hadded.once k hk
    rw [hnew, List.length_cons] at honce
    obtain rfl : js = [] := List.length_eq_zero_iff.1 (by omega)
    have hnone : valuesOf k.name members = [] := by
      refine List.eq_nil_iff_forall_not_mem.2 fun j hj => ?_
      exact hold _ (mem_valuesOf.1 hj) rfl
    rw [hnone, List.length_nil, List.length_eq_zero_iff] at hchanged
    rw [hchanged, hnew, List.nil_append, List.perm_singleton] at hall
    right; left
    rw [hnone, hall]
    exact ⟨hnullable, rfl, rfl⟩

/-- The one value of a member in a variant is the changed value. -/
theorem agrees_variant (hnames : changed.map Prod.fst = members.map Prod.fst)
    (hvalues : ∀ (i : Nat) (m m' : String × Json), members[i]? = some m → changed[i]? = some m' →
      k.name = m.1 → Agrees k.site (Reading.ofJson m.2) (Reading.ofJson m'.2))
    (hperm : members'.Perm (changed ++ added)) {r r' : Reading}
    (hr : valuesOf k.name (Reading.ofMembers members) = [r])
    (hr' : valuesOf k.name (Reading.ofMembers members') = [r']) : Agrees k.site r r' := by
  rw [valuesOf_ofMembers, List.map_eq_singleton_iff] at hr hr'
  obtain ⟨j, hj, rfl⟩ := hr
  obtain ⟨j', hj', rfl⟩ := hr'
  have hmem : (k.name, j) ∈ members := mem_valuesOf.1 (hj ▸ List.mem_singleton_self _)
  obtain ⟨i, hi⟩ := List.mem_iff_getElem?.1 hmem
  have hname : (changed[i]?).map Prod.fst = some k.name := by
    rw [← List.getElem?_map, hnames, List.getElem?_map, hi, Option.map_some]
  obtain ⟨⟨name, x⟩, hx, rfl⟩ := Option.map_eq_some_iff.1 hname
  -- the changed value is among the values of the variant, and there is only one
  have hall := valuesOf_variant (k := k) hperm
  have hmem' : x ∈ valuesOf k.name members' :=
    hall.mem_iff.2 (List.mem_append_left _ (mem_valuesOf.2 (List.mem_of_getElem? hx)))
  rw [hj', List.mem_singleton] at hmem'
  subst hmem'
  exact hvalues i _ _ hi hx rfl

end

/-- The members of a node's object are those of the kind that it names. -/
theorem exists_kind_of_members? {site : Site} (hsite : site = .node ∨ site = .loose)
    {members : List (String × Json)} {known : List Member}
    (h : site.members? members = some known) :
    ∃ kind, known = nodeMembers kind ∧
      ∀ r, valuesOf "type" (Reading.ofMembers members) = [r] → ∀ k, r.kind = .ok k → k = kind := by
  have h : (valuesOf "type" members).head?.bind (fun j =>
      (Reading.kind (Reading.ofJson j)).toOption.map nodeMembers) = some known := by
    rcases hsite with rfl | rfl <;> exact h
  obtain ⟨j, hj, h⟩ := Option.bind_eq_some_iff.1 h
  obtain ⟨kind, hkind, rfl⟩ := Option.map_eq_some_iff.1 h
  refine ⟨kind, rfl, fun r hr k hk => ?_⟩
  rw [valuesOf_ofMembers, List.map_eq_singleton_iff] at hr
  obtain ⟨j', hj', rfl⟩ := hr
  rw [hj', List.head?_cons, Option.some.injEq] at hj
  subst hj
  rw [toOption_eq_some_iff, hk] at hkind
  exact Except.ok.inj hkind

/-- What is read from a variant agrees with what was read. -/
theorem Varies.agrees {site : Site} {j j' : Json} (h : Varies site j j') :
    Agrees site (Reading.ofJson j) (Reading.ofJson j') := by
  induction h with
  | same => exact .same _ _
  | array hlength _ ih =>
    rw [Reading.ofJson, Reading.ofJson, ofItems_eq_map, ofItems_eq_map]
    refine .array (by rw [List.length_map, List.length_map, hlength]) fun i r r' hr hr' => ?_
    rw [List.getElem?_map, Option.map_eq_some_iff] at hr hr'
    obtain ⟨j, hj, rfl⟩ := hr
    obtain ⟨j', hj', rfl⟩ := hr'
    exact ih i j j' hj hj'
  | @object site members changed added members' known hknown hnames _ hadded hperm ih =>
    have hagree : MembersAgree known (Reading.ofMembers members) (Reading.ofMembers members') :=
      ⟨fun k hk => countsAgree_variant hnames hadded hperm hk, fun k r r' hk =>
        agrees_variant hnames (fun i m m' hm hm' => ih i m m' k hm hm' hk) hperm⟩
    have hnode (hsite : site = .node ∨ site = .loose) :
        Agrees site (Reading.ofJson (.object members)) (Reading.ofJson (.object members')) := by
      obtain ⟨kind, rfl, hkind⟩ := exists_kind_of_members? hsite hknown
      exact .node hsite (keeps_decode hagree hkind)
    cases site with
    | plain | list => cases hknown
    | node => exact hnode (.inl rfl)
    | loose => exact hnode (.inr rfl)
    | record form =>
      cases hknown
      exact .record hagree.count hagree.value

/-- A text that decodes to a node is an object, and every text of a variant of it decodes to the
same node. Of the members that are looked at nothing is passed over: none stands there twice, and
none is `null` that may not be. -/
theorem parse_variant (text : String) (n : Node) (h : Node.parse text = .ok n) :
    ∃ members, Json.parse Json.nestingLimit text = .ok (.object members) ∧
      (∀ (text' : String) (j' : Json), Json.parse Json.nestingLimit text' = .ok j' →
        Varies .node (.object members) j' → Node.parse text' = .ok n) ∧
      ∀ k ∈ nodeMembers n.kind, (valuesOf k.name members).length ≤ 1 ∧
        (k.nullable = false → .null ∉ valuesOf k.name members) := by
  obtain ⟨j, hj, hn⟩ := Node.parse_eq_ok_iff.1 h
  obtain ⟨members, rfl⟩ := exists_object_of_ofJson hn
  refine ⟨members, hj, fun text' j' hj' hvaries => ?_, fun k hk => accepts_of_ofJson hn hk⟩
  exact Node.parse_eq_ok_iff.2 ⟨j', hj', hvaries.agrees.keeps_node n hn⟩

/-- A keyword. -/
def plainKeyword : Json :=
  .object [("type", .text "Keyword"), ("value", .text "x")]

/-- The same keyword with its members the other way round, and with notes that nobody asked for. -/
def notedKeyword : Json :=
  .object [("note", .array []), ("note", .null), ("value", .text "x"), ("type", .text "Keyword")]

/-- The members of a call of a mixin, with the keyword as its argument. -/
def callMembers : List (String × Json) :=
  [("type", .text "MixinCall"), ("selector", .object [("type", .text "Selector")]),
    ("arguments", .array [.object [("value", plainKeyword)]])]

/-- The same call with its members the other way round at every object, and with `null` for an
offset, a list and a name that are absent. -/
def callVariant : Json :=
  .object [("index", .null),
    ("arguments", .array [.object [("name", .null), ("value", notedKeyword)]]),
    ("selector", .object [("elements", .null), ("type", .text "Selector")]),
    ("type", .text "MixinCall")]

theorem varies_notedKeyword : Varies .loose plainKeyword notedKeyword := by
  refine .of_forall₂ (nodeMembers .keyword) [("type", .text "Keyword"), ("value", .text "x")]
    [("note", .null), ("note", .array [])] (by decide) ?_ ?_ (List.reverse_perm'.1 (.refl _))
  · exact .cons ⟨rfl, fun _ _ _ => .same _ _⟩ (.cons ⟨rfl, fun _ _ _ => .same _ _⟩ .nil)
  · exact ⟨by simp [nodeMembers, Kind.members], by simp [nodeMembers, Kind.members, valuesOf]⟩

theorem varies_callVariant : Varies .node (.object callMembers) callVariant := by
  have hselector : Varies .node (.object [("type", .text "Selector")])
      (.object [("elements", .null), ("type", .text "Selector")]) := by
    refine .of_forall₂ (nodeMembers .selector) [("type", .text "Selector")] [("elements", .null)]
      (by decide) (.cons ⟨rfl, fun _ _ _ => .same _ _⟩ .nil) ?_ (List.reverse_perm'.1 (.refl _))
    exact ⟨by simp [nodeMembers, Kind.members], by simp [nodeMembers, Kind.members, valuesOf]⟩
  have hargument : Varies (.record .argument) (.object [("value", plainKeyword)])
      (.object [("name", .null), ("value", notedKeyword)]) := by
    have hsite : ∀ k ∈ Record.argument.members, k.name = "value" → k.site = .loose := by decide
    refine .of_forall₂ Record.argument.members [("value", notedKeyword)] [("name", .null)] rfl
      (.cons ⟨rfl, fun k hk hname => ?_⟩ .nil) ?_ (List.reverse_perm'.1 (.refl _))
    · rw [hsite k hk hname]
      exact varies_notedKeyword
    · exact ⟨by simp [Record.members], by simp [Record.members, valuesOf]⟩
  have hsites : ∀ k ∈ nodeMembers .mixinCall, (k.name = "selector" → k.site = .node) ∧
      (k.name = "arguments" → k.site = .list (.record .argument)) := by
    decide
  refine .of_forall₂ (nodeMembers .mixinCall)
    [("type", .text "MixinCall"),
      ("selector", .object [("elements", .null), ("type", .text "Selector")]),
      ("arguments", .array [.object [("name", .null), ("value", notedKeyword)]])]
    [("index", .null)] (by decide)
    (.cons ⟨rfl, fun _ _ _ => .same _ _⟩ (.cons ⟨rfl, fun k hk hname => ?_⟩
      (.cons ⟨rfl, fun k hk hname => ?_⟩ .nil))) ?_ (List.reverse_perm'.1 (.refl _))
  · rw [(hsites k hk).1 hname]
    exact hselector
  · rw [(hsites k hk).2 hname]
    refine .array rfl fun i j j' hj hj' => ?_
    cases i with
    | zero =>
      cases hj
      cases hj'
      exact hargument
    | succ i => cases hj
  · exact ⟨by simp [nodeMembers, Kind.members, callMembers],
      by simp [nodeMembers, Kind.members, valuesOf]⟩

theorem parse_variant_callVariant :
    ∃ n, Node.parse (Json.object callMembers).compactText = .ok n ∧
      Varies .node (.object callMembers) callVariant ∧
      Node.parse callVariant.compactText = .ok n := by
  have hcall : Json.parse Json.nestingLimit (Json.object callMembers).compactText
      = .ok (.object callMembers) :=
    Json.parse_compactText (by simp [callMembers, plainKeyword, Json.nestingLimit])
  have hvariant : Json.parse Json.nestingLimit callVariant.compactText = .ok callVariant :=
    Json.parse_compactText (by simp [callVariant, notedKeyword, Json.nestingLimit])
  have hnode : (Node.ofJson (.object callMembers)).toOption.isSome = true := by decide +kernel
  obtain ⟨n, hn⟩ := Option.isSome_iff_exists.1 hnode
  have hparse : Node.parse (Json.object callMembers).compactText = .ok n :=
    Node.parse_eq_ok_iff.2 ⟨_, hcall, toOption_eq_some_iff.1 hn⟩
  obtain ⟨members, hmembers, hall, -⟩ := parse_variant _ n hparse
  cases hcall.symm.trans hmembers
  exact ⟨n, hparse, varies_callVariant, hall _ _ hvariant varies_callVariant⟩

end ImportSweep.Tree
