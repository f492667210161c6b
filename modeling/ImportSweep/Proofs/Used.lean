import ImportSweep.Names.Used
import ImportSweep.Proofs.Fallible
import ImportSweep.Proofs.Interpolation
import ImportSweep.Proofs.Places

/-!
# Which names a file uses

`Refers n name` lists the ways in which a node refers to a name. When the used names of a scope can
be found, they are the names that some node of the scope refers to, imports not entered
(`mem_usedNames_iff`).
-/

namespace ImportSweep.Names

open ImportSweep.Tree

/-- The node is an element of a selector with a plain text. -/
def ElementText (element : Node) (text : String) : Prop :=
  ∃ join isVariable, element.body = .element join (.text text) isVariable

/-- The node refers to the name. -/
inductive Refers : Node → String → Prop where
  /-- The use of a variable refers to it. -/
  | variableUse {index : Option Nat} {name : String} : Refers ⟨index, .variableUse name⟩ name
  /-- A second at sign refers to the variable that holds the name as well. -/
  | indirect {index : Option Nat} {name : String} {rest : List Char}
      (hname : name.toList = '@' :: '@' :: rest) :
      Refers ⟨index, .variableUse name⟩ (String.ofList ('@' :: rest))
  /-- The call of a variable refers to it. -/
  | variableCall {index : Option Nat} {name : String} : Refers ⟨index, .variableCall name⟩ name
  /-- The use of a mixin refers to the first element of its selector. -/
  | mixinCall {index : Option Nat} {selector first : Node} {others extendList : List Node}
      {guard : Value} {arguments : List Argument} {name : String}
      (hselector : selector.body = .selector (first :: others) extendList guard)
      (hfirst : ElementText first name) : Refers ⟨index, .mixinCall selector arguments⟩ name
  /-- An extend refers to each element of its selector. -/
  | extend {index : Option Nat} {selector element : Node} {elements extendList : List Node}
      {guard : Value} {option : Option String} {name : String}
      (hselector : selector.body = .selector elements extendList guard)
      (helement : element ∈ elements) (htext : ElementText element name) :
      Refers ⟨index, .extend selector option⟩ name
  /-- An element of a selector refers to what is interpolated into its text. -/
  | element {index : Option Nat} {join : Option Node} {text : String} {isVariable : Bool}
      {name : String} (htext : Interpolates text.toList name) :
      Refers ⟨index, .element join (.text text) isVariable⟩ name
  /-- A quoted text refers to what is interpolated into it. -/
  | quoted {index : Option Nat} {text : String} {quote : Option String} {escaped : Bool}
      {name : String} (htext : Interpolates text.toList name) :
      Refers ⟨index, .quoted (.text text) quote escaped⟩ name
  /-- A `url(...)` refers to what is interpolated into it. -/
  | url {index : Option Nat} {text name : String} (htext : Interpolates text.toList name) :
      Refers ⟨index, .url (.text text)⟩ name

/-- The names that the use of a variable refers to. -/
theorem mem_variableNames_iff {index : Option Nat} {name target : String} :
    target ∈ variableNames name ↔ Refers ⟨index, .variableUse name⟩ target := by
  constructor
  · intro h
    rw [variableNames] at h
    split at h
    · -- Two at signs: both the variable and the one that it names.
      rename_i rest hname
      rcases List.mem_pair.1 h with rfl | rfl
      · exact .indirect hname
      · exact .variableUse
    · cases List.mem_singleton.1 h
      exact .variableUse
  · intro h
    cases h with
    | variableUse =>
      rw [variableNames]
      split <;> simp
    | indirect hname => simp [variableNames, hname]

/-- The head of a mixin call, when there is one, is the text of the first element. -/
theorem mixinHead_eq_ok {call selector : Node} {head : String}
    (h : mixinHead call selector = .ok head) (name : String) :
    name = head ↔ ∃ first others extendList guard,
      selector.body = .selector (first :: others) extendList guard ∧ ElementText first name := by
  unfold mixinHead at h
  split at h
  · cases h
  · rename_i first others extendList guard hselector
    split at h
    · rename_i join text isVariable hfirst
      split at h
      · cases h
      · cases h
        constructor
        · rintro rfl
          exact ⟨first, others, extendList, guard, hselector, join, isVariable, hfirst⟩
        · -- A node has one body, so the first element and its text are determined.
          rintro ⟨first', others', extendList', guard', hselector', join', isVariable', hfirst'⟩
          rw [hselector] at hselector'
          cases hselector'
          rw [hfirst] at hfirst'
          cases hfirst'
          rfl
    · cases h
    · cases h
  · cases h

/-- The targets of an extend, when its selector has elements only, are the texts of these. -/
theorem mem_extendTargets_iff {rule selector : Node} {names : List String}
    (h : extendTargets rule selector = .ok names) {name : String} :
    name ∈ names ↔ ∃ elements extendList guard, ∃ element ∈ elements,
      selector.body = .selector elements extendList guard ∧ ElementText element name := by
  unfold extendTargets at h
  split at h
  · rename_i elements extendList guard hselector
    obtain ⟨found, hfound, h⟩ := bind_eq_ok_iff.1 h
    cases h
    -- What one element gives is its text, if that is plain.
    have htarget : ∀ element, (∃ texts, extendTarget rule element = .ok texts ∧ name ∈ texts) ↔
        ElementText element name := by
      intro element
      constructor
      · rintro ⟨texts, htexts, hname⟩
        unfold extendTarget at htexts
        split at htexts
        · rename_i join value isVariable helement
          cases htexts
          cases value <;> simp [Value.text?] at hname
          cases hname
          exact ⟨join, isVariable, helement⟩
        · cases htexts
      · rintro ⟨join, isVariable, helement⟩
        exact ⟨[name], by simp [extendTarget, helement, Value.text?], List.mem_singleton_self name⟩
    rw [mem_flatten_of_mapM_eq_ok hfound]
    constructor
    · rintro ⟨element, hmem, htexts⟩
      exact ⟨elements, extendList, guard, element, hmem, hselector, (htarget element).1 htexts⟩
    · rintro ⟨elements', extendList', guard', element, hmem, hselector', htext⟩
      rw [hselector] at hselector'
      cases hselector'
      exact ⟨element, hmem, (htarget element).2 htext⟩
  · cases h

/-- The names spliced into a loosely typed member are interpolated into its text. -/
theorem mem_spliced_iff {value : Value} {name : String} :
    name ∈ spliced value ↔ ∃ text, value = .text text ∧ Interpolates text.toList name := by
  cases value <;> simp [spliced, mem_interpolations_iff]

/-- The names that a node by itself uses, when they can be found, are those it refers to. -/
theorem mem_usedBy_iff {n : Node} {names : List String} (h : usedBy n = .ok names)
    {name : String} : name ∈ names ↔ Refers n name := by
  -- The cases are those of `Refers`; errors are excluded by `h`.
  obtain ⟨index, body⟩ := n
  cases body
  case variableCall text =>
    simp only [usedBy] at h
    split at h
    · cases h
    · cases h
      constructor
      · intro hname
        cases List.mem_singleton.1 hname
        exact .variableCall
      · rintro ⟨⟩
        exact List.mem_singleton_self _
  case variableUse text =>
    simp only [usedBy] at h
    split at h
    · cases h
    · cases h
      exact mem_variableNames_iff
  case mixinCall selector arguments =>
    obtain ⟨head, hhead, h⟩ := bind_eq_ok_iff.1 h
    cases h
    rw [List.mem_singleton, mixinHead_eq_ok hhead]
    constructor
    · rintro ⟨first, others, extendList, guard, hselector, hfirst⟩
      exact .mixinCall hselector hfirst
    · intro hrefers
      cases hrefers with
      | mixinCall hselector hfirst => exact ⟨_, _, _, _, hselector, hfirst⟩
  case extend selector option =>
    rw [mem_extendTargets_iff h]
    constructor
    · rintro ⟨elements, extendList, guard, element, hmem, hselector, htext⟩
      exact .extend hselector hmem htext
    · intro hrefers
      cases hrefers with
      | extend hselector hmem htext => exact ⟨_, _, _, _, hmem, hselector, htext⟩
  case element join value isVariable =>
    cases h
    rw [mem_spliced_iff]
    constructor
    · rintro ⟨text, rfl, htext⟩
      exact .element htext
    · intro hrefers
      cases hrefers with
      | element htext => exact ⟨_, rfl, htext⟩
  case quoted value quote escaped =>
    cases h
    rw [mem_spliced_iff]
    constructor
    · rintro ⟨text, rfl, htext⟩
      exact .quoted htext
    · intro hrefers
      cases hrefers with
      | quoted htext => exact ⟨_, rfl, htext⟩
  case url value =>
    cases h
    rw [mem_spliced_iff]
    constructor
    · rintro ⟨text, rfl, htext⟩
      exact .url htext
    · intro hrefers
      cases hrefers with
      | url htext => exact ⟨_, rfl, htext⟩
  -- No other kind of node refers to a name.
  all_goals
    cases h
    refine iff_of_false List.not_mem_nil ?_
    rintro ⟨⟩

/-- The names that a scope uses, when they can be found, are those that one of its nodes refers
to. What stands inside an import does not count. -/
theorem mem_usedNames_iff {scope : Node} {used : NameSet} (h : usedNames scope = .ok used)
    {name : String} :
    name ∈ used ↔ ∃ place n, scope.at? false place = some n ∧ Refers n name := by
  obtain ⟨names, hnames, h⟩ := bind_eq_ok_iff.1 h
  cases h
  rw [NameSet.mem_ofList, mem_flatten_of_mapM_eq_ok hnames]
  constructor
  · rintro ⟨n, hn, texts, htexts, hname⟩
    obtain ⟨place, hplace⟩ := Node.mem_preorder_iff.1 hn
    exact ⟨place, n, hplace, (mem_usedBy_iff htexts).1 hname⟩
  · -- All nodes are treated with success, so this one is too.
    rintro ⟨place, n, hplace, hrefers⟩
    have hn : n ∈ scope.preorder false := Node.mem_preorder_iff.2 ⟨place, hplace⟩
    obtain ⟨texts, htexts⟩ := exists_mapM_eq_ok_iff.1 ⟨names, hnames⟩ n hn
    exact ⟨n, hn, texts, htexts, (mem_usedBy_iff htexts).2 hrefers⟩

end ImportSweep.Names
