import ImportSweep.Names.Exported
import ImportSweep.Proofs.Used

/-!
# Which names a tree exports

`Defines n name` lists the ways in which a node defines a name, and a tree exports what it defines
itself or one of its children does. When the exported names of a tree can be found, they are these
(`mem_exportedNames_iff`).
-/

namespace ImportSweep.Names

open ImportSweep.Tree

/-- The node defines the name. -/
inductive Defines : Node → String → Prop where
  /-- The definition of a variable defines it. -/
  | declaration {index : Option Nat} {value : Value} {name : String} (hname : name ≠ "") :
      Defines ⟨index, .declaration (.text name) value true⟩ name
  /-- The definition of a mixin defines it. -/
  | mixinDefinition {index : Option Nat} {selectors : List Node} {params : List Parameter}
      {condition : Option Node} {rules : List Node} {variadic : Bool} {name : String}
      (hname : name ≠ "") :
      Defines ⟨index, .mixinDefinition name selectors params condition rules variadic⟩ name
  /-- A block other than a file defines each of its selectors that is a single class or id. -/
  | ruleset {index : Option Nat} {selectors rules extendList : List Node}
      {selector element : Node} {guard : Value} {name : String} (hmem : selector ∈ selectors)
      (hselector : selector.body = .selector [element] extendList guard)
      (htext : ElementText element name)
      (hfirst : name.toList.head? = some '.' ∨ name.toList.head? = some '#') :
      Defines ⟨index, .ruleset (some selectors) rules false⟩ name

/-- The tree defines the name, by itself or in a child. -/
def Exports (tree : Node) (name : String) : Prop :=
  ∃ n, (n = tree ∨ n ∈ tree.children) ∧ Defines n name

theorem isClassOrId_iff {text : String} :
    isClassOrId text = true ↔ text.toList.head? = some '.' ∨ text.toList.head? = some '#' := by
  rw [isClassOrId]
  split
  · rename_i h
    simp [h]
  · rename_i h
    simp [h]
  · rename_i hdot hhash
    refine iff_of_false Bool.false_ne_true ?_
    rintro (h | h)
    · obtain ⟨rest, hrest⟩ := List.head?_eq_some_iff.1 h
      exact hdot rest hrest
    · obtain ⟨rest, hrest⟩ := List.head?_eq_some_iff.1 h
      exact hhash rest hrest

/-- The name of a selector, when it is looked up without an error. -/
theorem simpleName_eq_some_iff {target : Node} {found : Option String}
    (h : simpleName target = .ok found) {name : String} :
    found = some name ↔ ∃ element extendList guard,
      target.body = .selector [element] extendList guard ∧ ElementText element name ∧
        (name.toList.head? = some '.' ∨ name.toList.head? = some '#') := by
  unfold simpleName at h
  split at h
  · rename_i element extendList guard htarget
    -- The selector has one list of elements, so this element is the one spoken of.
    have hbody : ∀ {element' extendList' guard'},
        target.body = .selector [element'] extendList' guard' → element' = element := by
      intro element' extendList' guard' htarget'
      rw [htarget] at htarget'
      cases htarget'
      rfl
    split at h
    · rename_i join text isVariable helement
      cases h
      rw [← isClassOrId_iff]
      constructor
      · intro hfound
        split at hfound
        · rename_i hclass
          cases hfound
          exact ⟨element, extendList, guard, htarget, ⟨join, isVariable, helement⟩, hclass⟩
        · cases hfound
      · rintro ⟨element', extendList', guard', htarget', ⟨join', isVariable', helement'⟩, hclass⟩
        cases hbody htarget'
        rw [helement] at helement'
        cases helement'
        rw [if_pos hclass]
    · -- The element has no plain text.
      rename_i join value isVariable hnot helement
      cases h
      refine iff_of_false (Option.some_ne_none name).symm ?_
      rintro ⟨element', extendList', guard', htarget', ⟨join', isVariable', helement'⟩, -⟩
      cases hbody htarget'
      rw [helement] at helement'
      cases helement'
      exact hnot _ rfl
    · cases h
  · -- The selector has no element or several.
    rename_i elements extendList guard hnot htarget
    cases h
    refine iff_of_false (Option.some_ne_none name).symm ?_
    rintro ⟨element', extendList', guard', htarget', -⟩
    rw [htarget] at htarget'
    cases htarget'
    exact hnot _ rfl
  · cases h

/-- The names that a node by itself defines, when they can be found. -/
theorem mem_definedBy_iff {n : Node} {names : List String} (h : definedBy n = .ok names)
    {name : String} : name ∈ names ↔ Defines n name := by
  obtain ⟨index, body⟩ := n
  unfold definedBy at h
  split at h
  · -- The definition of a variable; its name is a plain text, or else there is an error.
    rename_i declared value hbody
    cases hbody
    split at h
    · rename_i text
      split at h
      · cases h
      · rename_i hne
        cases h
        constructor
        · intro hname
          cases List.mem_singleton.1 hname
          exact .declaration hne
        · rintro ⟨⟩
          exact List.mem_singleton_self _
    · cases h
  · -- The definition of a mixin.
    rename_i text selectors params condition rules variadic hbody
    cases hbody
    split at h
    · cases h
    · rename_i hne
      cases h
      constructor
      · intro hname
        cases List.mem_singleton.1 hname
        exact .mixinDefinition hne
      · rintro ⟨⟩
        exact List.mem_singleton_self _
  · -- A block that is not a file: each selector by itself.
    rename_i selectors rules hbody
    cases hbody
    obtain ⟨found, hfound, h⟩ := bind_eq_ok_iff.1 h
    cases h
    simp only [List.mem_filterMap, mem_of_mapM_eq_ok hfound, id]
    constructor
    · rintro ⟨_, ⟨selector, hmem, hsimple⟩, rfl⟩
      obtain ⟨element, extendList, guard, hselector, htext, hfirst⟩ :=
        (simpleName_eq_some_iff hsimple).1 rfl
      exact .ruleset hmem hselector htext hfirst
    · intro hdefines
      cases hdefines with
      | @ruleset _ _ _ extendList selector element guard _ hmem hselector htext hfirst =>
        obtain ⟨simple, hsimple⟩ := exists_mapM_eq_ok_iff.1 ⟨found, hfound⟩ selector hmem
        have hsome : simple = some name :=
          (simpleName_eq_some_iff hsimple).2 ⟨element, extendList, guard, hselector, htext, hfirst⟩
        exact ⟨some name, ⟨selector, hmem, hsome ▸ hsimple⟩, rfl⟩
  · -- Any other node defines nothing.
    rename_i hvar hmixin hruleset
    cases h
    refine iff_of_false List.not_mem_nil ?_
    intro hdefines
    cases hdefines with
    | declaration => exact hvar _ _ rfl
    | mixinDefinition => exact hmixin _ _ _ _ _ _ rfl
    | ruleset => exact hruleset _ _ rfl

/-- The names that a scope exports, when they can be found. -/
theorem mem_exportedNames_iff {scope : Node} {exported : NameSet}
    (h : exportedNames scope = .ok exported) {name : String} :
    name ∈ exported ↔ Exports scope name := by
  obtain ⟨names, hnames, h⟩ := bind_eq_ok_iff.1 h
  cases h
  rw [NameSet.mem_ofList, mem_flatten_of_mapM_eq_ok hnames]
  constructor
  · rintro ⟨n, hn, texts, htexts, hname⟩
    exact ⟨n, List.mem_cons.1 hn, (mem_definedBy_iff htexts).1 hname⟩
  · -- The scope and its children are all treated with success.
    rintro ⟨n, hn, hdefines⟩
    have hmem := List.mem_cons.2 hn
    obtain ⟨texts, htexts⟩ := exists_mapM_eq_ok_iff.1 ⟨names, hnames⟩ n hmem
    exact ⟨n, hmem, texts, htexts, (mem_definedBy_iff htexts).2 hdefines⟩

end ImportSweep.Names
