import ImportSweep.Proofs.Decoding

/-!
# The members that decoding looks at

`nodeMembers` and `Record.members` list the members of each object of a tree: what they hold, and
whether `null` says the same as their absence.

That these lists are right is `follows_body`, once through all kinds. A node is read from the listed
members alone: another object gives the same node if these members agree (`MembersAgree`). And each
of them is looked at, since none may stand there twice or be `null` where it may not
(`accepts_of_ofJson`). Values agree (`Agrees`) that are read alike where they stand.
-/

namespace ImportSweep.Tree

/-! ## Members -/

/-- The records that stand in members of nodes. -/
inductive Record where
  /-- The options of an import. -/
  | importOptions
  /-- An argument of a mixin call. -/
  | argument
  /-- A parameter of a mixin definition. -/
  | parameter
  deriving DecidableEq, Repr

/-- What is due at a place of a tree's JSON, as far as it may hold objects. -/
inductive Site where
  /-- Something that holds no objects. -/
  | plain
  /-- A node, or nothing. -/
  | node
  /-- A loosely typed value. -/
  | loose
  /-- A list. -/
  | list (item : Site)
  /-- A record. -/
  | record (form : Record)
  deriving DecidableEq, Repr

/-- A member of an object. -/
structure Member where
  /-- Its name. -/
  name : String
  /-- What it holds. -/
  site : Site
  /-- It may be `null`, which says the same as its absence. -/
  nullable : Bool
  deriving DecidableEq, Repr

/-- The members of a record, in the order in which an array gives them. -/
def Record.members : Record → List Member
  | importOptions =>
    [⟨"reference", .plain, true⟩, ⟨"inline", .plain, true⟩, ⟨"css", .plain, true⟩,
      ⟨"less", .plain, true⟩, ⟨"optional", .plain, true⟩, ⟨"multiple", .plain, true⟩]
  | argument => [⟨"name", .plain, true⟩, ⟨"value", .loose, true⟩]
  | parameter => [⟨"name", .plain, true⟩, ⟨"value", .loose, true⟩, ⟨"variadic", .plain, true⟩]

/-- The members of a kind. -/
def Kind.members : Kind → List Member
  | anonymous | color | combinator | expression | keyword | negative | paren | unicodeDescriptor
  | url | valueList => [⟨"value", .loose, true⟩]
  | assignment => [⟨"key", .loose, true⟩, ⟨"value", .loose, true⟩]
  | atRule => [⟨"name", .plain, true⟩, ⟨"value", .loose, true⟩, ⟨"rules", .list .node, true⟩]
  | attributeSelector => [⟨"key", .loose, true⟩, ⟨"op", .plain, true⟩, ⟨"value", .loose, true⟩]
  | call => [⟨"name", .plain, false⟩, ⟨"args", .list .loose, true⟩]
  | comment => [⟨"value", .loose, true⟩, ⟨"isLineComment", .plain, true⟩]
  | condition =>
    [⟨"op", .plain, true⟩, ⟨"lvalue", .loose, true⟩, ⟨"rvalue", .loose, true⟩,
      ⟨"negate", .plain, true⟩]
  | declaration =>
    [⟨"name", .list .node, false⟩, ⟨"value", .loose, true⟩, ⟨"variable", .plain, true⟩]
  | detachedRuleset => [⟨"ruleset", .node, false⟩]
  | dimension => [⟨"value", .loose, true⟩, ⟨"unit", .node, true⟩]
  | element => [⟨"combinator", .node, true⟩, ⟨"value", .loose, true⟩, ⟨"isVariable", .plain, true⟩]
  | extend => [⟨"selector", .node, false⟩, ⟨"option", .plain, true⟩]
  | importRule =>
    [⟨"path", .loose, true⟩, ⟨"features", .loose, true⟩, ⟨"options", .record .importOptions, true⟩,
      ⟨"root", .node, true⟩, ⟨"importedFilename", .plain, true⟩]
  | javaScript => [⟨"expression", .loose, true⟩]
  | media => [⟨"features", .loose, true⟩, ⟨"rules", .list .node, true⟩]
  | mixinCall => [⟨"selector", .node, false⟩, ⟨"arguments", .list (.record .argument), true⟩]
  | mixinDefinition =>
    [⟨"name", .plain, false⟩, ⟨"selectors", .list .node, true⟩,
      ⟨"params", .list (.record .parameter), true⟩, ⟨"condition", .node, true⟩,
      ⟨"rules", .list .node, true⟩, ⟨"variadic", .plain, true⟩]
  | namespaceValue => [⟨"value", .node, false⟩, ⟨"lookups", .plain, true⟩]
  | operation => [⟨"op", .plain, true⟩, ⟨"operands", .list .loose, true⟩]
  | property => [⟨"name", .plain, false⟩]
  | quoted => [⟨"value", .loose, true⟩, ⟨"quote", .plain, true⟩, ⟨"escaped", .plain, true⟩]
  | ruleset =>
    [⟨"selectors", .list .node, true⟩, ⟨"rules", .list .node, true⟩, ⟨"root", .plain, true⟩]
  | selector =>
    [⟨"elements", .list .node, true⟩, ⟨"extendList", .list .node, true⟩,
      ⟨"condition", .loose, true⟩]
  | unit =>
    [⟨"numerator", .plain, true⟩, ⟨"denominator", .plain, true⟩, ⟨"backupUnit", .plain, true⟩]
  | variableUse => [⟨"name", .plain, false⟩]
  | variableCall => [⟨"variable", .plain, false⟩]

/-- All members of a node of some kind. -/
def nodeMembers (kind : Kind) : List Member :=
  ⟨"type", .plain, false⟩ :: ⟨"index", .plain, true⟩ :: kind.members

/-- What is due at an item of an array. -/
def Site.item : Site → Nat → Site
  | .plain, _ | .node, _ => .plain
  | .loose, _ => .loose
  | .list item, _ => item
  | .record form, position => (form.members[position]?).elim .plain Member.site

/-! ## What is read alike -/

/-- What the first computation gives, the second gives as well. -/
def Keeps {ε α : Type} (x x' : Except ε α) : Prop :=
  ∀ a, x = .ok a → x' = .ok a

/-- How often a member stands in an object and in its variant. More than once is never read. -/
def CountsAgree (nullable : Bool) (rs rs' : List Reading) : Prop :=
  rs'.length = rs.length ∨ (nullable = true ∧ rs = [] ∧ rs' = [.null]) ∨ 2 ≤ rs.length

/-- Two values that are read alike where they stand. -/
inductive Agrees : Site → Reading → Reading → Prop
  | same (site : Site) (r : Reading) : Agrees site r r
  | array {site : Site} {rs rs' : List Reading} (hlength : rs'.length = rs.length)
      (h : ∀ (i : Nat) (r r' : Reading), rs[i]? = some r → rs'[i]? = some r' →
        Agrees (site.item i) r r') :
      Agrees site (.array rs) (.array rs')
  | node {site : Site} {members members' : List (String × Reading)}
      {node node' : Except DecodeError Node} (hsite : site = .node ∨ site = .loose)
      (h : Keeps node node') : Agrees site (.object members node) (.object members' node')
  | record {form : Record} {members members' : List (String × Reading)}
      {node node' : Except DecodeError Node}
      (hcount : ∀ k ∈ form.members,
        CountsAgree k.nullable (valuesOf k.name members) (valuesOf k.name members'))
      (hvalue : ∀ (k : Member) (r r' : Reading), k ∈ form.members →
        valuesOf k.name members = [r] → valuesOf k.name members' = [r'] → Agrees k.site r r') :
      Agrees (.record form) (.object members node) (.object members' node')

/-- The members of an object and of its variant that are looked at. -/
structure MembersAgree (known : List Member) (members members' : List (String × Reading)) :
    Prop where
  count : ∀ k ∈ known,
    CountsAgree k.nullable (valuesOf k.name members) (valuesOf k.name members')
  value : ∀ (k : Member) (r r' : Reading), k ∈ known → valuesOf k.name members = [r] →
    valuesOf k.name members' = [r'] → Agrees k.site r r'

namespace Keeps

variable {ε α β : Type}

theorem refl (x : Except ε α) : Keeps x x :=
  fun _ h => h

theorem bind {x x' : Except ε α} {f f' : α → Except ε β} (hx : Keeps x x')
    (hf : ∀ a, Keeps (f a) (f' a)) : Keeps (x >>= f) (x' >>= f') := by
  intro b h
  obtain ⟨a, ha, hb⟩ := bind_eq_ok_iff.1 h
  exact bind_eq_ok_iff.2 ⟨a, hx a ha, hf a b hb⟩

theorem map {x x' : Except ε α} (f : α → β) (hx : Keeps x x') : Keeps (f <$> x) (f <$> x') := by
  cases x with
  | error e => exact fun _ h => nomatch h
  | ok a => rw [hx a rfl]; exact refl _

theorem mapM {item : α → Except ε β} {xs xs' : List α} (hlength : xs'.length = xs.length)
    (h : ∀ (i : Nat) (x x' : α), xs[i]? = some x → xs'[i]? = some x' → Keeps (item x) (item x')) :
    Keeps (xs.mapM item) (xs'.mapM item) := by
  induction xs generalizing xs' with
  | nil =>
    obtain rfl := List.length_eq_zero_iff.1 hlength
    exact refl _
  | cons x xs ih =>
    obtain ⟨x', xs', rfl⟩ := List.exists_cons_of_length_eq_add_one hlength
    rw [List.mapM_cons, List.mapM_cons]
    refine bind (h 0 x x' rfl rfl) fun b => bind (ih (by simpa using hlength) fun i => ?_) fun _ =>
      refl _
    exact h (i + 1)

theorem placedMap {f : α → β} {x x' : Placed α} (h : Keeps x.run x'.run) :
    Keeps (f <$> x).run (f <$> x').run := by
  intro b hb
  obtain ⟨a, ha, rfl⟩ := Placed.run_map_eq_ok_iff.1 hb
  exact Placed.run_map_eq_ok_iff.2 ⟨a, h a ha, rfl⟩

theorem placedSeq {f f' : Placed (α → β)} {x x' : Placed α} (hf : Keeps f.run f'.run)
    (hx : Keeps x.run x'.run) : Keeps (f <*> x).run (f' <*> x').run := by
  intro b hb
  obtain ⟨g, a, hg, ha, rfl⟩ := Placed.run_seq_eq_ok_iff.1 hb
  exact Placed.run_seq_eq_ok_iff.2 ⟨g, a, hf g hg, hx a ha, rfl⟩

theorem placedSeqLeft {x x' : Placed α} {y y' : Placed β} (hx : Keeps x.run x'.run)
    (hy : Keeps y.run y'.run) : Keeps (x <* y).run (x' <* y').run := by
  intro a ha
  obtain ⟨ha, b, hb⟩ := Placed.run_seqLeft_eq_ok_iff.1 ha
  exact Placed.run_seqLeft_eq_ok_iff.2 ⟨hx a ha, b, hy b hb⟩

end Keeps

namespace Agrees

variable {site : Site} {r r' : Reading} {α : Type} {reader : Reading → Except DecodeError α}

/-- Where nothing is looked into, nothing varies. -/
theorem eq_of_plain (h : Agrees .plain r r') : r = r' := by
  generalize hsite : Site.plain = site at h
  induction h with
  | same => rfl
  | array hlength _ ih =>
    subst hsite
    congr 1
    refine List.ext_getElem hlength.symm fun i hi hi' => ?_
    exact ih i _ _ (List.getElem?_eq_getElem hi) (List.getElem?_eq_getElem hi') rfl
  | node hnode =>
    subst hsite
    simp at hnode
  | record => cases hsite

theorem keeps_plain (h : Agrees .plain r r') : Keeps (reader r) (reader r') := by
  rw [h.eq_of_plain]
  exact .refl _

theorem keeps_optional (h : Agrees site r r') (hreader : Keeps (reader r) (reader r')) :
    Keeps (Reading.optional reader r) (Reading.optional reader r') := by
  cases h with
  | same => exact .refl _
  | _ => exact .map some hreader

theorem keeps_orElse (h : Agrees site r r') (default : α) (hreader : Keeps (reader r) (reader r')) :
    Keeps (Reading.orElse default reader r) (Reading.orElse default reader r') :=
  .bind (h.keeps_optional hreader) fun _ => .refl _

theorem keeps_listOf (h : Agrees (.list site) r r')
    (hreader : ∀ s s', Agrees site s s' → Keeps (reader s) (reader s')) :
    Keeps (Reading.listOf reader r) (Reading.listOf reader r') := by
  cases h with
  | same => exact .refl _
  | array hlength h => exact .mapM hlength fun i s s' hs hs' => hreader s s' (h i s s' hs hs')
  | node hsite => simp at hsite

theorem keeps_node (h : Agrees .node r r') : Keeps r.node r'.node := by
  cases h with
  | same => exact .refl _
  | array => exact fun _ h => nomatch h
  | node _ h => exact h

theorem value_eq_ok_iff {v : Value} : r.value = .ok v ↔ r.value? = some v := by
  cases h : r.value? <;> simp [Reading.value, h]

theorem values?_eq (rs : List Reading) : Reading.values? rs = (rs.mapM Reading.value).toOption := by
  have hvalue (r : Reading) : r.value? = r.value.toOption := by
    cases h : r.value? <;> simp [Reading.value, h, Except.toOption]
  rw [← mapM_toOption]
  induction rs with
  | nil => rfl
  | cons r rs ih => rw [Reading.values?, ih, hvalue, List.mapM_cons]

/-- A loosely typed value is a node, or a list of loosely typed values. -/
theorem keeps_value (h : Agrees .loose r r') : Keeps r.value r'.value := by
  generalize hsite : Site.loose = site at h
  -- on the agreement, since arrays of loosely typed values nest
  induction h with
  | same => exact .refl _
  | array hlength _ ih =>
    subst hsite
    have hitems := Keeps.mapM hlength fun i s s' hs hs' => ih i s s' hs hs' rfl
    intro v hv
    simp only [value_eq_ok_iff, Reading.value?, Option.map_eq_some_iff, values?_eq,
      toOption_eq_some_iff] at hv ⊢
    obtain ⟨vs, hvs, rfl⟩ := hv
    exact ⟨vs, hitems vs hvs, rfl⟩
  | node _ h =>
    intro v hv
    simp only [value_eq_ok_iff, Reading.value?, Option.map_eq_some_iff,
      toOption_eq_some_iff] at hv ⊢
    obtain ⟨n, hn, rfl⟩ := hv
    exact ⟨n, h n hn, rfl⟩
  | record => cases hsite

theorem keeps_declaredName (h : Agrees (.list .node) r r') :
    Keeps r.declaredName r'.declaredName := by
  cases h with
  | same => exact .refl _
  | @array _ rs rs' hlength h =>
    have hitems := Keeps.mapM hlength fun i s s' hs hs' => (h i s s' hs hs').keeps_node
    intro name hname
    simp only [Reading.declaredName, mapM_toOption] at hname ⊢
    cases hparts : rs.mapM Reading.node with
    | error e => simp [hparts, Except.toOption] at hname
    | ok parts =>
      rw [hparts] at hname
      rw [hitems parts hparts]
      exact hname
  | node hsite => simp at hsite

end Agrees

/-! ## Members of nodes -/

/-- The values that a member may have in an object that decodes: at most one, and `null` only where
it may be. -/
structure Member.Accepts (k : Member) (rs : List Reading) : Prop where
  once : rs.length ≤ 1
  notNull : k.nullable = false → .null ∉ rs

/-- A computation that reads the given members and accepts no others of their names, and what it
gives where these members agree. -/
structure Follows {α : Type} (members : List (String × Reading)) (known : List Member)
    (x x' : Placed α) : Prop where
  keeps : Keeps x.run x'.run
  accepts : ∀ a, x.run = .ok a → ∀ k ∈ known, k.Accepts (valuesOf k.name members)

namespace Follows

variable {α β : Type} {members : List (String × Reading)} {known known' : List Member}

theorem map {f : α → β} {x x' : Placed α} (h : Follows members known x x') :
    Follows members known (f <$> x) (f <$> x') where
  keeps := h.keeps.placedMap
  accepts := by
    intro b hb
    obtain ⟨a, ha, -⟩ := Placed.run_map_eq_ok_iff.1 hb
    exact h.accepts a ha

theorem seq {f f' : Placed (α → β)} {x x' : Placed α} (hf : Follows members known f f')
    (hx : Follows members known' x x') :
    Follows members (known ++ known') (f <*> x) (f' <*> x') where
  keeps := hf.keeps.placedSeq hx.keeps
  accepts := by
    intro b hb k hk
    obtain ⟨g, a, hg, ha, -⟩ := Placed.run_seq_eq_ok_iff.1 hb
    rcases List.mem_append.1 hk with hk | hk
    · exact hf.accepts g hg k hk
    · exact hx.accepts a ha k hk

end Follows

/-- What `null` gives for a member that may be `null`, and for one that may not. -/
def NullFits {α : Type} (absent atNull : Except DecodeError α) : Bool → Prop
  | true => Keeps absent atNull
  | false => ∀ a, atNull ≠ .ok a

namespace MembersAgree

variable {α : Type} {known : List Member} {members members' : List (String × Reading)}

/-- A member that is read alike wherever its values agree. -/
theorem follows (h : MembersAgree known members members') {k : Member} (hk : k ∈ known)
    {absent : Except DecodeError α} {reader : Reading → Except DecodeError α}
    (hnull : NullFits absent (reader .null) k.nullable)
    (hreader : ∀ r r', Agrees k.site r r' → Keeps (reader r) (reader r')) :
    Follows members [k] (Fields.member members k.name absent reader)
      (Fields.member members' k.name absent reader) where
  keeps := by
    intro a ha
    rw [member_eq_ok_iff] at ha ⊢
    -- as many values as before, a `null` that is new, or too many to begin with
    obtain hcount | ⟨hnullable, hnone, hone⟩ | hmany := h.count k hk
    · obtain ⟨hnone, ha⟩ | ⟨r, hone, ha⟩ := ha
      · rw [hnone] at hcount
        exact .inl ⟨List.length_eq_zero_iff.1 hcount, ha⟩
      · rw [hone] at hcount
        obtain ⟨r', hone'⟩ := List.length_eq_one_iff.1 hcount
        exact .inr ⟨r', hone', hreader r r' (h.value k r r' hk hone hone') a ha⟩
    · obtain ⟨-, ha⟩ | ⟨r, hone', -⟩ := ha
      · rw [hnullable] at hnull
        exact .inr ⟨.null, hone, hnull a ha⟩
      · simp [hnone] at hone'
    · obtain ⟨hnone, -⟩ | ⟨r, hone, -⟩ := ha
      · simp [hnone] at hmany
      · simp [hone] at hmany
  accepts := by
    intro a ha k' hk'
    obtain rfl := List.mem_singleton.1 hk'
    obtain ⟨hnone, -⟩ | ⟨r, hone, hr⟩ := member_eq_ok_iff.1 ha
    · rw [hnone]
      exact ⟨Nat.zero_le 1, fun _ => List.not_mem_nil⟩
    · rw [hone]
      refine ⟨Nat.le_refl 1, fun hstrict hmem => ?_⟩
      obtain rfl := List.mem_singleton.1 hmem
      rw [hstrict] at hnull
      exact hnull a hr

/-- A member with a default. -/
theorem follows_get (h : MembersAgree known members members') {name : String} {site : Site}
    {nullable : Bool} (hk : ⟨name, site, nullable⟩ ∈ known) {default : α}
    {reader : Reading → Except DecodeError α}
    (hnull : NullFits (.ok default) (reader .null) nullable)
    (hreader : ∀ r r', Agrees site r r' → Keeps (reader r) (reader r')) :
    Follows members [⟨name, site, nullable⟩] (NodeMembers.get ⟨members⟩ name default reader)
      (NodeMembers.get ⟨members'⟩ name default reader) :=
  h.follows hk hnull hreader

/-- A member that holds no objects. -/
theorem follows_plain (h : MembersAgree known members members') {name : String} {nullable : Bool}
    (hk : ⟨name, .plain, nullable⟩ ∈ known) {default : α} {reader : Reading → Except DecodeError α}
    (hnull : NullFits (.ok default) (reader .null) nullable) :
    Follows members [⟨name, .plain, nullable⟩] (NodeMembers.get ⟨members⟩ name default reader)
      (NodeMembers.get ⟨members'⟩ name default reader) :=
  h.follows_get hk hnull fun _ _ hr => hr.keeps_plain

variable (h : MembersAgree known members members') {name : String} (i : Nat)
include h

theorem follows_value (hk : known[i]? = some ⟨name, .loose, true⟩) :
    Follows members [⟨name, .loose, true⟩] (NodeMembers.value ⟨members⟩ name)
      (NodeMembers.value ⟨members'⟩ name) :=
  h.follows_get (List.mem_of_getElem? hk) (Keeps.refl _) fun _ _ hr => hr.keeps_value

theorem follows_values (hk : known[i]? = some ⟨name, .list .loose, true⟩) :
    Follows members [⟨name, .list .loose, true⟩] (NodeMembers.values ⟨members⟩ name)
      (NodeMembers.values ⟨members'⟩ name) :=
  h.follows_get (List.mem_of_getElem? hk) (Keeps.refl _) fun _ _ hr =>
    hr.keeps_orElse [] (hr.keeps_listOf fun _ _ hs => hs.keeps_value)

theorem follows_text (hk : known[i]? = some ⟨name, .plain, false⟩) :
    Follows members [⟨name, .plain, false⟩] (NodeMembers.text ⟨members⟩ name)
      (NodeMembers.text ⟨members'⟩ name) :=
  h.follows_plain (List.mem_of_getElem? hk) (fun _ h => nomatch h)

theorem follows_text? (hk : known[i]? = some ⟨name, .plain, true⟩) :
    Follows members [⟨name, .plain, true⟩] (NodeMembers.text? ⟨members⟩ name)
      (NodeMembers.text? ⟨members'⟩ name) :=
  h.follows_plain (List.mem_of_getElem? hk) (Keeps.refl _)

theorem follows_texts (hk : known[i]? = some ⟨name, .plain, true⟩) :
    Follows members [⟨name, .plain, true⟩] (NodeMembers.texts ⟨members⟩ name)
      (NodeMembers.texts ⟨members'⟩ name) :=
  h.follows_plain (List.mem_of_getElem? hk) (Keeps.refl _)

theorem follows_flag (hk : known[i]? = some ⟨name, .plain, true⟩) :
    Follows members [⟨name, .plain, true⟩] (NodeMembers.flag ⟨members⟩ name)
      (NodeMembers.flag ⟨members'⟩ name) :=
  h.follows_plain (List.mem_of_getElem? hk) (Keeps.refl _)

theorem follows_node (hk : known[i]? = some ⟨name, .node, false⟩) :
    Follows members [⟨name, .node, false⟩] (NodeMembers.node ⟨members⟩ name)
      (NodeMembers.node ⟨members'⟩ name) :=
  h.follows (List.mem_of_getElem? hk) (fun _ h => nomatch h) fun _ _ hr => hr.keeps_node

theorem follows_node? (hk : known[i]? = some ⟨name, .node, true⟩) :
    Follows members [⟨name, .node, true⟩] (NodeMembers.node? ⟨members⟩ name)
      (NodeMembers.node? ⟨members'⟩ name) :=
  h.follows_get (List.mem_of_getElem? hk) (Keeps.refl _) fun _ _ hr =>
    hr.keeps_optional hr.keeps_node

theorem follows_nodes (hk : known[i]? = some ⟨name, .list .node, true⟩) :
    Follows members [⟨name, .list .node, true⟩] (NodeMembers.nodes ⟨members⟩ name)
      (NodeMembers.nodes ⟨members'⟩ name) :=
  h.follows_get (List.mem_of_getElem? hk) (Keeps.refl _) fun _ _ hr =>
    hr.keeps_orElse [] (hr.keeps_listOf fun _ _ hs => hs.keeps_node)

theorem follows_nodes? (hk : known[i]? = some ⟨name, .list .node, true⟩) :
    Follows members [⟨name, .list .node, true⟩] (NodeMembers.nodes? ⟨members⟩ name)
      (NodeMembers.nodes? ⟨members'⟩ name) :=
  h.follows_get (List.mem_of_getElem? hk) (Keeps.refl _) fun _ _ hr =>
    hr.keeps_optional (hr.keeps_listOf fun _ _ hs => hs.keeps_node)

theorem follows_declaredName (hk : known[i]? = some ⟨name, .list .node, false⟩) :
    Follows members [⟨name, .list .node, false⟩]
      (NodeMembers.get ⟨members⟩ name (.text "") Reading.declaredName)
      (NodeMembers.get ⟨members'⟩ name (.text "") Reading.declaredName) :=
  h.follows_get (List.mem_of_getElem? hk) (fun _ h => nomatch h) fun _ _ hr => hr.keeps_declaredName

end MembersAgree

/-! ## Records -/

/-- The fields of a record and of its variant. -/
inductive FieldsAgree (form : Record) : Fields → Fields → Prop
  | members {members members' : List (String × Reading)}
      (h : MembersAgree form.members members members') :
      FieldsAgree form (.members members) (.members members')
  | items {rs rs' : List Reading} (hlength : rs'.length = rs.length)
      (h : ∀ (i : Nat) (r r' : Reading), rs[i]? = some r → rs'[i]? = some r' →
        Agrees ((Site.record form).item i) r r') :
      FieldsAgree form (.items rs) (.items rs')

namespace FieldsAgree

variable {form : Record} {fields fields' : Fields} {α : Type}

theorem keeps_get (h : FieldsAgree form fields fields') {name : String} {site : Site}
    (position : Nat) (hk : form.members[position]? = some ⟨name, site, true⟩) {default : α}
    {reader : Reading → Except DecodeError α} (hnull : Keeps (.ok default) (reader .null))
    (hreader : ∀ r r', Agrees site r r' → Keeps (reader r) (reader r')) :
    Keeps (fields.get position name default reader).run
      (fields'.get position name default reader).run := by
  cases h with
  | members h => exact (h.follows_get (List.mem_of_getElem? hk) hnull hreader).keeps
  | @items rs rs' hlength h =>
    have hsite : (Site.record form).item position = site := by simp [Site.item, hk]
    simp only [Fields.get]
    by_cases hposition : position < rs.length
    · have hposition' : position < rs'.length := by omega
      have hr := List.getElem?_eq_getElem hposition
      have hr' := List.getElem?_eq_getElem hposition'
      have hkeeps := hreader _ _ (hsite ▸ h position _ _ hr hr')
      rw [hr, hr']
      intro a ha
      exact Placed.run_put_eq_ok_iff.2 (hkeeps a (Placed.run_put_eq_ok_iff.1 ha))
    · have hr : rs[position]? = none := List.getElem?_eq_none (by omega)
      have hr' : rs'[position]? = none := List.getElem?_eq_none (by omega)
      rw [hr, hr']
      exact .refl _

theorem keeps_plain (h : FieldsAgree form fields fields') {name : String} (position : Nat)
    (hk : form.members[position]? = some ⟨name, .plain, true⟩) {default : α}
    {reader : Reading → Except DecodeError α} (hnull : Keeps (.ok default) (reader .null)) :
    Keeps (fields.get position name default reader).run
      (fields'.get position name default reader).run :=
  h.keeps_get position hk hnull fun _ _ hr => hr.keeps_plain

theorem keeps_atMost (h : FieldsAgree form fields fields') (count : Nat) :
    Keeps (fields.atMost count).run (fields'.atMost count).run := by
  cases h with
  | members => exact .refl _
  | items hlength =>
    rw [Fields.atMost, Fields.atMost, hlength]
    exact .refl _

theorem keeps_importOptions (h : FieldsAgree .importOptions fields fields') :
    Keeps fields.importOptions.run fields'.importOptions.run := by
  have hflag {name : String} (position : Nat)
      (hk : Record.importOptions.members[position]? = some ⟨name, .plain, true⟩) :
      Keeps (fields.get position name false (Reading.orElse false Reading.truth)).run
        (fields'.get position name false (Reading.orElse false Reading.truth)).run :=
    h.keeps_plain position hk (.refl _)
  exact .placedSeqLeft (.placedSeq (.placedSeq (.placedSeq (.placedSeq (.placedSeq
    (.placedMap (hflag 0 rfl)) (hflag 1 rfl)) (hflag 2 rfl)) (hflag 3 rfl)) (hflag 4 rfl))
    (hflag 5 rfl)) (h.keeps_atMost 6)

theorem keeps_argument (h : FieldsAgree .argument fields fields') :
    Keeps fields.argument.run fields'.argument.run := by
  refine .placedSeqLeft (.placedSeq (.placedMap ?_) ?_) (h.keeps_atMost 2)
  · exact h.keeps_plain 0 rfl (.refl _)
  · exact h.keeps_get 1 rfl (.refl _) fun _ _ hr => hr.keeps_value

theorem keeps_parameter (h : FieldsAgree .parameter fields fields') :
    Keeps fields.parameter.run fields'.parameter.run := by
  refine .placedSeqLeft (.placedSeq (.placedSeq (.placedMap ?_) ?_) ?_) (h.keeps_atMost 3)
  · exact h.keeps_plain 0 rfl (.refl _)
  · exact h.keeps_get 1 rfl (.refl _) fun _ _ hr => hr.keeps_value
  · exact h.keeps_plain 2 rfl (.refl _)

end FieldsAgree

theorem Agrees.keeps_read {form : Record} {r r' : Reading} (h : Agrees (.record form) r r')
    (expected : Expected) {α : Type} {record : Fields → Placed α}
    (hrecord : ∀ fields fields', FieldsAgree form fields fields' →
      Keeps (record fields).run (record fields').run) :
    Keeps (Fields.read expected record r) (Fields.read expected record r') := by
  have hresult (fields fields' : Fields) (hfields : FieldsAgree form fields fields') :
      Keeps (record fields).result (record fields').result := fun a ha =>
    Placed.result_eq_ok_iff.2 (hrecord _ _ hfields a (Placed.result_eq_ok_iff.1 ha))
  cases h with
  | same => exact .refl _
  | array hlength h => exact hresult _ _ (.items hlength h)
  | node hsite => simp at hsite
  | record hcount hvalue => exact hresult _ _ (.members ⟨hcount, hvalue⟩)

namespace MembersAgree

variable {α : Type} {known : List Member} {members members' : List (String × Reading)}
  (h : MembersAgree known members members') {name : String} (i : Nat)
include h

theorem follows_records {form : Record} (hk : known[i]? = some ⟨name, .list (.record form), true⟩)
    (expected : Expected) {record : Fields → Placed α}
    (hrecord : ∀ fields fields', FieldsAgree form fields fields' →
      Keeps (record fields).run (record fields').run) :
    Follows members [⟨name, .list (.record form), true⟩]
      (NodeMembers.records ⟨members⟩ name expected record)
      (NodeMembers.records ⟨members'⟩ name expected record) :=
  h.follows_get (List.mem_of_getElem? hk) (Keeps.refl _) fun _ _ hr =>
    hr.keeps_orElse [] (hr.keeps_listOf fun _ _ hs => hs.keeps_read expected hrecord)

theorem follows_importOptions (hk : known[i]? = some ⟨name, .record .importOptions, true⟩) :
    Follows members [⟨name, .record .importOptions, true⟩]
      (NodeMembers.get ⟨members⟩ name {}
        (Reading.orElse {} (Fields.read .importOptions Fields.importOptions)))
      (NodeMembers.get ⟨members'⟩ name {}
        (Reading.orElse {} (Fields.read .importOptions Fields.importOptions))) :=
  h.follows_get (List.mem_of_getElem? hk) (Keeps.refl _) fun _ _ hr =>
    hr.keeps_orElse {} (hr.keeps_read _ fun _ _ hfields => hfields.keeps_importOptions)

end MembersAgree

/-! ## Nodes -/

/-- The body of a node reads the members of its kind. -/
theorem follows_body (kind : Kind) {members members' : List (String × Reading)}
    (h : MembersAgree kind.members members members') :
    Follows members kind.members (NodeMembers.body ⟨members⟩ kind)
      (NodeMembers.body ⟨members'⟩ kind) := by
  cases kind with
  | anonymous | color | combinator | expression | keyword | negative | paren | unicodeDescriptor
  | url | valueList => exact .map (h.follows_value 0 rfl)
  | assignment => exact .seq (.map (h.follows_value 0 rfl)) (h.follows_value 1 rfl)
  | atRule =>
    exact .seq (.seq (.map (h.follows_text? 0 rfl)) (h.follows_value 1 rfl)) (h.follows_nodes 2 rfl)
  | attributeSelector =>
    exact .seq (.seq (.map (h.follows_value 0 rfl)) (h.follows_text? 1 rfl)) (h.follows_value 2 rfl)
  | call => exact .seq (.map (h.follows_text 0 rfl)) (h.follows_values 1 rfl)
  | comment => exact .seq (.map (h.follows_value 0 rfl)) (h.follows_flag 1 rfl)
  | condition =>
    exact .seq (.seq (.seq (.map (h.follows_text? 0 rfl)) (h.follows_value 1 rfl))
      (h.follows_value 2 rfl)) (h.follows_flag 3 rfl)
  | declaration =>
    exact .seq (.seq (.map (h.follows_declaredName 0 rfl)) (h.follows_value 1 rfl))
      (h.follows_flag 2 rfl)
  | detachedRuleset => exact .map (h.follows_node 0 rfl)
  | dimension => exact .seq (.map (h.follows_value 0 rfl)) (h.follows_node? 1 rfl)
  | element =>
    exact .seq (.seq (.map (h.follows_node? 0 rfl)) (h.follows_value 1 rfl)) (h.follows_flag 2 rfl)
  | extend => exact .seq (.map (h.follows_node 0 rfl)) (h.follows_text? 1 rfl)
  | importRule =>
    exact .seq (.seq (.seq (.seq (.map (h.follows_value 0 rfl)) (h.follows_value 1 rfl))
      (h.follows_importOptions 2 rfl)) (h.follows_node? 3 rfl)) (h.follows_text? 4 rfl)
  | javaScript => exact .map (h.follows_value 0 rfl)
  | media => exact .seq (.map (h.follows_value 0 rfl)) (h.follows_nodes 1 rfl)
  | mixinCall =>
    exact .seq (.map (h.follows_node 0 rfl))
      (h.follows_records 1 rfl _ fun _ _ hfields => hfields.keeps_argument)
  | mixinDefinition =>
    exact .seq (.seq (.seq (.seq (.seq (.map (h.follows_text 0 rfl)) (h.follows_nodes 1 rfl))
      (h.follows_records 2 rfl _ fun _ _ hfields => hfields.keeps_parameter))
      (h.follows_node? 3 rfl)) (h.follows_nodes 4 rfl)) (h.follows_flag 5 rfl)
  | namespaceValue => exact .seq (.map (h.follows_node 0 rfl)) (h.follows_texts 1 rfl)
  | operation => exact .seq (.map (h.follows_text? 0 rfl)) (h.follows_values 1 rfl)
  | property | variableUse | variableCall => exact .map (h.follows_text 0 rfl)
  | quoted =>
    exact .seq (.seq (.map (h.follows_value 0 rfl)) (h.follows_text? 1 rfl)) (h.follows_flag 2 rfl)
  | ruleset =>
    exact .seq (.seq (.map (h.follows_nodes? 0 rfl)) (h.follows_nodes 1 rfl)) (h.follows_flag 2 rfl)
  | selector =>
    exact .seq (.seq (.map (h.follows_nodes 0 rfl)) (h.follows_nodes 1 rfl)) (h.follows_value 2 rfl)
  | unit =>
    exact .seq (.seq (.map (h.follows_texts 0 rfl)) (h.follows_texts 1 rfl)) (h.follows_text? 2 rfl)

section

variable {kind : Kind} {members members' : List (String × Reading)}
  (h : MembersAgree (nodeMembers kind) members members')
include h

theorem follows_type :
    Follows members [⟨"type", .plain, false⟩]
      (Fields.member members "type" (.error (.missing "type")) Reading.kind)
      (Fields.member members' "type" (.error (.missing "type")) Reading.kind) :=
  h.follows (List.mem_of_getElem? (i := 0) rfl) (fun _ h => nomatch h) fun _ _ hr => hr.keeps_plain

theorem follows_index :
    Follows members [⟨"index", .plain, true⟩]
      (NodeMembers.get ⟨members⟩ "index" none (Reading.optional Reading.offset))
      (NodeMembers.get ⟨members'⟩ "index" none (Reading.optional Reading.offset)) := by
  apply h.follows_plain (List.mem_of_getElem? (i := 1) rfl)
  exact Keeps.refl _

theorem membersAgree_kind : MembersAgree kind.members members members' :=
  ⟨fun k hk => h.count k (.tail _ (.tail _ hk)),
    fun k r r' hk => h.value k r r' (.tail _ (.tail _ hk))⟩

/-- An object whose members agree is the same node. -/
theorem keeps_decode
    (hkind : ∀ r, valuesOf "type" members = [r] → ∀ k, r.kind = .ok k → k = kind) :
    Keeps (NodeMembers.decode ⟨members⟩) (NodeMembers.decode ⟨members'⟩) := by
  intro n hn
  rw [decode_eq_ok_iff] at hn ⊢
  obtain ⟨hindex, htype, hbody⟩ := hn
  -- the kind is read from the object itself, and decides which members count
  have hn : n.kind = kind := by
    obtain ⟨-, hmissing⟩ | ⟨r, hone, hr⟩ := member_eq_ok_iff.1 htype
    · cases hmissing
    · exact hkind r hone n.kind hr
  subst hn
  exact ⟨(follows_index h).keeps _ hindex, (follows_type h).keeps _ htype,
    (follows_body n.kind (membersAgree_kind h)).keeps _ hbody⟩

end

/-- In the object of a node, no member that is looked at stands twice, and none is `null` that may
not be. -/
theorem accepts_of_ofJson {members : List (String × Json)} {n : Node}
    (hn : Node.ofJson (.object members) = .ok n) {k : Member} (hk : k ∈ nodeMembers n.kind) :
    (valuesOf k.name members).length ≤ 1 ∧
      (k.nullable = false → .null ∉ valuesOf k.name members) := by
  have hsame : MembersAgree (nodeMembers n.kind) (Reading.ofMembers members)
      (Reading.ofMembers members) := by
    refine ⟨fun k _ => .inl rfl, fun k r r' _ hr hr' => ?_⟩
    cases hr.symm.trans hr'
    exact .same _ _
  obtain ⟨hindex, htype, hbody⟩ := decode_eq_ok_iff.1 hn
  have haccepts : k.Accepts (valuesOf k.name (Reading.ofMembers members)) := by
    rcases hk with _ | ⟨_, _ | ⟨_, hk⟩⟩
    · exact (follows_type hsame).accepts _ htype _ (List.mem_singleton_self _)
    · exact (follows_index hsame).accepts _ hindex _ (List.mem_singleton_self _)
    · exact (follows_body n.kind (membersAgree_kind hsame)).accepts _ hbody _ hk
  rw [valuesOf_ofMembers] at haccepts
  refine ⟨List.length_map Reading.ofJson ▸ haccepts.once, fun hstrict hnull => ?_⟩
  exact haccepts.notNull hstrict (List.mem_map.2 ⟨.null, hnull, rfl⟩)

end ImportSweep.Tree
