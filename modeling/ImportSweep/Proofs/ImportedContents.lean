import ImportSweep.Proofs.PlacedImports

/-!
# What an import holds

An imported file matters only through the names that it exports. Two files that differ in nothing
but the insides of their imports (`SameOutsideImports`) use the same names, and the imports reported
as unused stand at the same places of both (`unusedImports_sameOutsideImports`), as long as the
imported trees export the same names. What else the trees hold, and how an import is written, is not
looked at.
-/

namespace ImportSweep

open ImportSweep.Tree ImportSweep.Names

/-! ## Files that differ inside imports -/

/-- Either both imports are unresolved, or the imported trees export the same names. -/
inductive SameSupply : Option Node → Option Node → Prop where
  /-- Both are unresolved. -/
  | unresolved : SameSupply none none
  /-- Both are resolved, and the names of their trees can be found and are the same. -/
  | resolved {tree tree' : Node} {names : NameSet} (htree : exportedNames tree = .ok names)
      (htree' : exportedNames tree' = .ok names) : SameSupply (some tree) (some tree')

/-- The trees are the same except for what stands inside imports. Imports that correspond agree in
whether they are for reference and in the names that they bring in. -/
inductive SameOutsideImports : Node → Node → Prop where
  /-- Two imports. -/
  | imports {index index' : Option Nat} {path path' features features' : Value}
      {options options' : ImportOptions} {root root' : Option Node}
      {importedFilename importedFilename' : Option String}
      (hreference : options.reference = options'.reference) (hroot : SameSupply root root') :
      SameOutsideImports ⟨index, .importRule path features options root importedFilename⟩
        ⟨index', .importRule path' features' options' root' importedFilename'⟩
  /-- Two nodes that are no imports: they look the same, and what they hold is the same in turn. -/
  | nodes {n n' : Node} (himport : n.isImport = false) (hindex : n.index = n'.index)
      (hshape : n.body.shape = n'.body.shape) (hlength : n.held.length = n'.held.length)
      (hheld : ∀ (i : Nat) (c c' : Node), n.held[i]? = some c → n'.held[i]? = some c' →
        SameOutsideImports c c') :
      SameOutsideImports n n'

/-- The elements of a selector come first among what it holds. -/
theorem elements?_isPrefix {n : Node} {elements : List Node}
    (h : n.body.elements? = some elements) : elements <+: n.held := by
  obtain ⟨extendList, guard, hbody⟩ := Body.exists_of_elements?_eq_some h
  simp [Node.held, hbody, Body.members, Value.nodes_ofNodes]

/-- The selectors that a node is read through come first among what it holds. -/
theorem targets_isPrefix (n : Node) : n.body.targets <+: n.held := by
  obtain ⟨index, body⟩ := n
  cases body
  case extend | mixinCall => simp [Body.targets, Node.held, Body.members, Value.nodes]
  case ruleset => simp [Body.targets, Node.held, Body.members, Value.nodes_ofNodes]
  all_goals exact List.nil_prefix

theorem forall₂_of_getElem? {R : Node → Node → Prop} {ns ns' : List Node}
    (hlength : ns.length = ns'.length)
    (h : ∀ (i : Nat) (c c' : Node), ns[i]? = some c → ns'[i]? = some c' → R c c') :
    List.Forall₂ R ns ns' := by
  refine List.forall₂_iff_get.2 ⟨hlength, fun i hi hi' => h i _ _ ?_ ?_⟩
  · simp
  · simp

theorem forall₂_of_isPrefix {R : Node → Node → Prop} {held held' l l' : List Node}
    (h : List.Forall₂ R held held') (hl : l <+: held) (hl' : l' <+: held')
    (hlength : l.length = l'.length) : List.Forall₂ R l l' := by
  rw [List.prefix_iff_eq_take.1 hl, List.prefix_iff_eq_take.1 hl', hlength]
  exact List.forall₂_take _ h

theorem map_eq_map_of_forall₂ {α β : Type} {R : α → α → Prop} {f : α → β} {l l' : List α}
    (h : List.Forall₂ R l l') (hf : ∀ a a', R a a' → f a = f a') : l.map f = l'.map f := by
  rw [← List.forall₂_eq_eq_eq, List.forall₂_map_left_iff, List.forall₂_map_right_iff]
  exact h.imp hf

theorem forall_mem_of_forall₂ {α : Type} {R : α → α → Prop} {p : α → Prop} {l l' : List α}
    (h : List.Forall₂ R l l') (hR : ∀ a a', R a a' → p a ∧ p a') :
    (∀ a ∈ l, p a) ∧ ∀ a ∈ l', p a := by
  induction h with
  | nil => simp
  | cons hfirst _ ih =>
    exact ⟨List.forall_mem_cons.2 ⟨(hR _ _ hfirst).1, ih.1⟩,
      List.forall_mem_cons.2 ⟨(hR _ _ hfirst).2, ih.2⟩⟩

/-- Numbers before their places do not tell nodes apart that are walked alike. -/
theorem forall₂_placed_below {R : Node → Node → Prop} {ns ns' : List Node}
    (h : List.Forall₂ (fun c c' => List.Forall₂
      (fun entry entry' => entry.1 = entry'.1 ∧ R entry.2 entry'.2) c.placed c'.placed) ns ns')
    (start : Nat) :
    List.Forall₂ (fun entry entry' => entry.1 = entry'.1 ∧ R entry.2 entry'.2)
      ((ns.zipIdx start).flatMap fun numbered =>
        numbered.1.placed.map fun entry => (numbered.2 :: entry.1, entry.2))
      ((ns'.zipIdx start).flatMap fun numbered =>
        numbered.1.placed.map fun entry => (numbered.2 :: entry.1, entry.2)) := by
  induction h generalizing start with
  | nil => exact .nil
  | cons hfirst _ ih =>
    rw [List.zipIdx_cons, List.zipIdx_cons, List.flatMap_cons, List.flatMap_cons]
    refine List.rel_append ?_ (ih (start + 1))
    rw [List.forall₂_map_left_iff, List.forall₂_map_right_iff]
    exact hfirst.imp fun entry entry' hentry => ⟨congrArg (start :: ·) hentry.1, hentry.2⟩

namespace SameOutsideImports

variable {n n' : Node}

theorem shape_eq (h : SameOutsideImports n n') : n.body.shape = n'.body.shape := by
  cases h with
  | imports => rfl
  | nodes _ _ hshape => exact hshape

theorem forall₂_held (h : SameOutsideImports n n') (himport : n.isImport = false) :
    List.Forall₂ SameOutsideImports n.held n'.held := by
  cases h with
  | imports => cases himport
  | nodes _ _ _ hlength hheld => exact forall₂_of_getElem? hlength hheld

/-- Nodes that are no imports, look the same and hold the same in turn. -/
theorem of_forall₂_held (himport : n.isImport = false) (hindex : n.index = n'.index)
    (hshape : n.body.shape = n'.body.shape)
    (hheld : List.Forall₂ SameOutsideImports n.held n'.held) : SameOutsideImports n n' := by
  obtain ⟨hlength, hget⟩ := List.forall₂_iff_get.1 hheld
  refine .nodes himport hindex hshape hlength fun i c c' hc hc' => ?_
  obtain ⟨hi, rfl⟩ := List.getElem?_eq_some_iff.1 hc
  obtain ⟨hi', rfl⟩ := List.getElem?_eq_some_iff.1 hc'
  exact hget i hi hi'

/-- As selectors the two say the same. -/
theorem labels?_eq (h : SameOutsideImports n n') : n.labels? = n'.labels? := by
  cases himport : n.isImport with
  | true =>
    cases h with
    | imports => rfl
    | nodes himport' => cases himport.symm.trans himport'
  | false =>
    have hlength := Body.length_elements?_eq_of_shape_eq h.shape_eq
    rw [Node.labels?, Node.labels?]
    cases helements : n.body.elements? with
    | none =>
      rw [helements, Option.map_none] at hlength
      rw [Option.map_eq_none_iff.1 hlength.symm, Option.map_none]
    | some elements =>
      rw [helements, Option.map_some] at hlength
      obtain ⟨elements', helements', hsize⟩ := Option.map_eq_some_iff.1 hlength.symm
      have hall := forall₂_of_isPrefix (h.forall₂_held himport) (elements?_isPrefix helements)
        (elements?_isPrefix helements') hsize.symm
      rw [helements', Option.map_some, Option.map_some]
      exact congrArg some
        (map_eq_map_of_forall₂ hall fun c c' hc => Body.label_eq_of_shape_eq hc.shape_eq)

/-- The selectors that the two are read through say the same. -/
theorem targets_labels?_eq (h : SameOutsideImports n n') :
    n.body.targets.map Node.labels? = n'.body.targets.map Node.labels? := by
  cases himport : n.isImport with
  | true =>
    cases h with
    | imports => rfl
    | nodes himport' => cases himport.symm.trans himport'
  | false =>
    have hall := forall₂_of_isPrefix (h.forall₂_held himport) (targets_isPrefix n)
      (targets_isPrefix n') (Body.length_targets_eq_of_shape_eq h.shape_eq)
    exact map_eq_map_of_forall₂ hall fun c c' hc => hc.labels?_eq

theorem toOption_usedBy_eq (h : SameOutsideImports n n') :
    (usedBy n).toOption = (usedBy n').toOption :=
  toOption_usedBy_congr h.shape_eq h.targets_labels?_eq

/-- The two are walked alike: what is visited stands at the same places and is the same in turn. -/
theorem forall₂_placed (h : SameOutsideImports n n') :
    List.Forall₂ (fun entry entry' => entry.1 = entry'.1 ∧ SameOutsideImports entry.2 entry'.2)
      n.placed n'.placed := by
  induction h with
  | imports hreference hroot =>
    -- Nothing is entered below an import.
    rw [Node.placed_eq, Node.placed_eq]
    exact .cons ⟨rfl, .imports hreference hroot⟩ .nil
  | @nodes n n' himport hindex hshape hlength hheld ih =>
    have hkind : n.kind = n'.kind := Body.kind_eq_of_shape_eq hshape
    rw [Node.placed_eq, Node.placed_eq]
    refine .cons ⟨rfl, .nodes himport hindex hshape hlength hheld⟩ ?_
    rw [Node.entered_eq_held, Node.entered_eq_held, ← Node.isImport_eq_of_shape_eq hshape, ← hkind]
    split
    · exact .nil
    · exact forall₂_placed_below (forall₂_of_getElem? hlength ih) 0

/-- The two use the same names, or the names of neither can be found. -/
theorem usedNames_iff (h : SameOutsideImports n n') {used : NameSet} :
    usedNames n = .ok used ↔ usedNames n' = .ok used := by
  have houtcomes : (n.preorder false).map (fun m => (usedBy m).toOption) =
      (n'.preorder false).map fun m => (usedBy m).toOption := by
    rw [← n.map_snd_placed, ← n'.map_snd_placed, List.map_map, List.map_map]
    exact map_eq_map_of_forall₂ h.forall₂_placed fun entry entry' hentry =>
      hentry.2.toOption_usedBy_eq
  rw [usedNames_eq_gathered, usedNames_eq_gathered]
  exact gathered_congr fun outcome => by rw [houtcomes]

end SameOutsideImports

/-! ## The verdict on imports -/

/-- The imports agree in whether they are for reference and in the names that they bring in. -/
structure SameVerdict (statement statement' : ImportStatement) : Prop where
  /-- Both are for reference, or neither is. -/
  reference : statement.options.reference = statement'.options.reference
  /-- They bring in the same names. -/
  supply : SameSupply statement.root statement'.root

namespace SameVerdict

variable {statement statement' : ImportStatement}

theorem exists_importSupply (h : SameVerdict statement statement') :
    (∃ supply, importSupply statement = .ok supply) ∧
      ∃ supply, importSupply statement' = .ok supply := by
  obtain ⟨index, path, options, root, importedFilename⟩ := statement
  obtain ⟨index', path', options', root', importedFilename'⟩ := statement'
  cases h.supply with
  | unresolved => exact ⟨⟨_, rfl⟩, _, rfl⟩
  | resolved htree htree' =>
    simp [importSupply, htree, htree', bind, Except.bind, pure, Except.pure]

theorem isUnusedAmong_eq (h : SameVerdict statement statement') (referenceOnly : Bool)
    (used : NameSet) :
    isUnusedAmong referenceOnly used statement = isUnusedAmong referenceOnly used statement' := by
  have hreference := h.reference
  obtain ⟨index, path, options, root, importedFilename⟩ := statement
  obtain ⟨index', path', options', root', importedFilename'⟩ := statement'
  cases h.supply with
  | unresolved => rfl
  | resolved htree htree' =>
    simp only at hreference
    simp [isUnusedAmong, importSupply, htree, htree', bind, Except.bind, pure, Except.pure,
      ImportSupply.isUnused, hreference]

end SameVerdict

/-- Imports that correspond stand at the same places, and there is one verdict on them. -/
theorem SameOutsideImports.forall₂_placedImports {n n' : Node} (h : SameOutsideImports n n') :
    List.Forall₂ (fun entry entry' => entry.1 = entry'.1 ∧ SameVerdict entry.2 entry'.2)
      (placedImports n) (placedImports n') := by
  refine List.rel_filterMap ?_ h.forall₂_placed
  rintro ⟨place, m⟩ ⟨place', m'⟩ ⟨hplace, hm⟩
  cases hplace
  cases hm with
  | imports hreference hroot => exact .some ⟨rfl, hreference, hroot⟩
  | nodes himport _ hshape =>
    -- Neither of the two is an import.
    have hnone : ∀ {m : Node}, m.isImport = false → ImportStatement.ofNode? m = none := by
      rintro ⟨index, body⟩ hm
      cases body
      case importRule => cases hm
      all_goals rfl
    have himport' : m'.isImport = false :=
      (Node.isImport_eq_of_shape_eq hshape).symm.trans himport
    simp only [hnone (m := m) himport, hnone himport', Option.map_none]
    exact .none

/-- What is inside imports matters only through the names that they bring in. Files that differ in
nothing else use the same names, and the imports reported as unused stand at the same places. -/
theorem unusedImports_sameOutsideImports (root root' : Node) (h : SameOutsideImports root root') :
    (∀ used, usedNames root = .ok used ↔ usedNames root' = .ok used) ∧
    (placedImports root).map Prod.fst = (placedImports root').map Prod.fst ∧
    ∀ referenceOnly,
      ((∃ unused, unusedImports referenceOnly root = .ok unused) ↔
        ∃ unused', unusedImports referenceOnly root' = .ok unused') ∧
      ∀ unused unused', unusedImports referenceOnly root = .ok unused →
        unusedImports referenceOnly root' = .ok unused' →
        ∃ reported reported' : List (List Nat × ImportStatement),
          reported.Sublist (placedImports root) ∧ reported'.Sublist (placedImports root') ∧
          (∀ entry ∈ placedImports root, entry ∈ reported ↔ entry.2 ∈ unused) ∧
          (∀ entry ∈ placedImports root', entry ∈ reported' ↔ entry.2 ∈ unused') ∧
          reported.map Prod.snd = unused ∧ reported'.map Prod.snd = unused' ∧
          reported.map Prod.fst = reported'.map Prod.fst := by
  have himports := h.forall₂_placedImports
  have hplaces : ∀ {entries entries' : List (List Nat × ImportStatement)},
      List.Forall₂ (fun entry entry' => entry.1 = entry'.1 ∧ SameVerdict entry.2 entry'.2)
        entries entries' → entries.map Prod.fst = entries'.map Prod.fst := fun hentries =>
    map_eq_map_of_forall₂ hentries fun _ _ hentry => hentry.1
  -- The names of all imports can be found, on either side.
  have hsupplies : (∀ entry ∈ placedImports root, ∃ supply, importSupply entry.2 = .ok supply) ∧
      ∀ entry ∈ placedImports root', ∃ supply, importSupply entry.2 = .ok supply :=
    forall_mem_of_forall₂ himports fun _ _ hentry => hentry.2.exists_importSupply
  refine ⟨fun used => h.usedNames_iff, hplaces himports, fun referenceOnly => ⟨?_, ?_⟩⟩
  · rw [exists_unusedImports_iff, exists_unusedImports_iff, and_iff_left hsupplies.1,
      and_iff_left hsupplies.2]
    exact exists_congr fun used => h.usedNames_iff
  · intro unused unused' hunused hunused'
    obtain ⟨used, hused, -, rfl⟩ := unusedImports_eq_ok_iff_reported.1 hunused
    obtain ⟨used', hused', -, rfl⟩ := unusedImports_eq_ok_iff_reported.1 hunused'
    -- Both files use the same names, so there is one verdict on imports that correspond.
    cases Except.ok.inj (hused'.symm.trans (h.usedNames_iff.1 hused))
    refine ⟨_, _, List.filter_sublist, List.filter_sublist, fun _ => mem_reportedImports_iff,
      fun _ => mem_reportedImports_iff, rfl, rfl, hplaces ?_⟩
    refine List.rel_filter (fun entry entry' hentry => ?_) himports
    simp only [hentry.2.isUnusedAmong_eq]

/-- A file with an import for reference that brings in `@y`. -/
def paletteFile : Node :=
  Build.root
    [Build.importRule "palette"
      (some (Build.root [Build.variableDeclaration "@y" (Build.anonymous "red")])) true,
     Build.variableCall "@x"]

/-- The same file with another import in its place. The tree that it imports holds further imports
and uses that cannot be read, and brings in `@y` as well. -/
def themeFile : Node :=
  Build.root
    [⟨some 7, .importRule (.text "theme") (.node (Build.variableUse ""))
      { reference := true, less := true }
      (some (Build.root
        [Build.importRule "base" none false, Build.mixinCall [],
         Build.variableDeclaration "@y" (Build.variableUse "@x")])) (some "theme.less")⟩,
     Build.variableCall "@x"]

/-- In both files the first rule is reported. -/
theorem unusedImports_sameOutsideImports_theme :
    SameOutsideImports paletteFile themeFile ∧
      ∃ place statement statement', unusedImports true paletteFile = .ok [statement] ∧
        unusedImports true themeFile = .ok [statement'] ∧
        (place, statement) ∈ placedImports paletteFile ∧
        (place, statement') ∈ placedImports themeFile := by
  have hsame : SameOutsideImports paletteFile themeFile := by
    refine .of_forall₂_held rfl rfl rfl (.cons (.imports rfl (.resolved rfl rfl)) ?_)
    exact .cons (.of_forall₂_held rfl rfl rfl .nil) .nil
  obtain ⟨-, -, hreports⟩ := unusedImports_sameOutsideImports paletteFile themeFile hsame
  obtain ⟨reported, reported', hsublist, hsublist', -, -, hfound, hfound', hplaces⟩ :=
    (hreports true).2 _ _ rfl rfl
  obtain ⟨⟨place, statement⟩, rfl, hstatement⟩ := List.map_eq_singleton_iff.1 hfound
  obtain ⟨⟨place', statement'⟩, rfl, hstatement'⟩ := List.map_eq_singleton_iff.1 hfound'
  cases hplaces
  cases hstatement
  cases hstatement'
  exact ⟨hsame, place, _, _, rfl, rfl, List.singleton_sublist.1 hsublist,
    List.singleton_sublist.1 hsublist'⟩

end ImportSweep
