import ImportSweep.Proofs.PlacedImports

/-!
# Deleting imports from a tree

Imports that stand as rules can be deleted from the text of a file. An import uses no names and
nothing below it is looked at, so the file uses the same names without it, and the verdict on all
other imports is the same (`unusedImports_withoutRules`). So removals do not make further imports
unused, and when all unused imports are gone, no import is unused.

The nodes that a walk visits after a deletion are those that it visited before, less the deleted
ones (`preorder_withoutRules`).
-/

namespace ImportSweep.Tree

/-! ## Deleting -/

/-- The edit that deletes the rules at certain places. -/
def deletion (deleted : List Nat → Bool) : RuleEdit :=
  fun place first rules =>
    ((rules.zipIdx first).filter fun rule => !deleted (place ++ [rule.2])).map Prod.fst

/-- The tree without the rules at certain places. -/
def Node.withoutRules (deleted : List Nat → Bool) (n : Node) : Node :=
  n.editRules (deletion deleted)

/-- At the place an import stands as a rule of a block. -/
def Node.IsRuleImport (root : Node) (place : List Nat) : Prop :=
  ∃ above j owner n, root.textAt? above = some owner ∧ owner.body.rules[j]? = some n ∧
    n.isImport = true ∧ place = above ++ [owner.body.stem.length + j]

/-- Only imports that stand as rules of blocks are deleted. -/
structure DeletesImports (deleted : List Nat → Bool) (n : Node) : Prop where
  /-- The node itself stays. -/
  top : deleted [] = false
  /-- What is deleted is a rule and an import. -/
  rule {above : List Nat} {i : Nat} {owner : Node} (howner : n.textAt? above = some owner)
    (hdeleted : deleted (above ++ [i]) = true) :
    owner.body.stem.length ≤ i ∧ ∃ c, owner.held[i]? = some c ∧ c.isImport = true

theorem DeletesImports.of_isRuleImport {deleted : List Nat → Bool} {root : Node}
    (h : ∀ place, deleted place = true → root.IsRuleImport place) :
    DeletesImports deleted root where
  top := by
    by_contra htop
    obtain ⟨above, j, owner, n, -, -, -, hplace⟩ := h [] (Bool.not_eq_false _ ▸ htop)
    exact absurd hplace.symm (by simp)
  rule {above i owner} howner hdeleted := by
    obtain ⟨above', j, owner', n, howner', hn, himport, hplace⟩ := h _ hdeleted
    -- The place is that of one block and one number.
    obtain ⟨rfl, hi⟩ := List.append_inj' hplace rfl
    cases howner.symm.trans howner'
    cases hi
    refine ⟨Nat.le_add_right _ _, n, ?_, himport⟩
    rw [Node.held_eq, List.getElem?_append_right (Nat.le_add_right _ _), Nat.add_sub_cancel_left]
    exact hn

/-- Seen from a node that stays, too, only imports that stand as rules are deleted. -/
theorem DeletesImports.below {deleted : List Nat → Bool} {n c : Node} {i : Nat}
    (h : DeletesImports deleted n) (hc : n.held[i]? = some c) (hi : deleted [i] = false) :
    DeletesImports (fun place => deleted (i :: place)) c where
  top := hi
  rule {above j owner} howner hdeleted := by
    have hplace : n.textAt? (i :: above) = some owner := by
      rw [Node.textAt?, hc]
      exact howner
    exact h.rule hplace hdeleted

theorem deletion_nil (deleted : List Nat → Bool) (place : List Nat) (first : Nat) :
    deletion deleted place first [] = [] :=
  rfl

/-- Deleting from edited nodes is deleting first and editing then. -/
theorem deletion_editFrom (deleted : List Nat → Bool) (edit : RuleEdit) (first : Nat)
    (rules : List Node) :
    deletion deleted [] first (Node.editFrom edit first rules) =
      ((rules.zipIdx first).filter fun rule => !deleted [rule.2]).map fun rule =>
        rule.1.editRules (edit.below rule.2) := by
  induction rules generalizing first with
  | nil => rfl
  | cons n rules ih =>
    have hrest := ih (first + 1)
    rw [deletion] at hrest ⊢
    rw [Node.editFrom, List.zipIdx_cons, List.zipIdx_cons]
    cases hfirst : deleted [first] with
    | false => simpa [hfirst] using hrest
    | true => simpa [hfirst] using hrest

/-- After a deletion a node holds the nodes that are left, each after the deletion. -/
theorem Node.held_withoutRules {deleted : List Nat → Bool} {n : Node}
    (h : DeletesImports deleted n) :
    (n.withoutRules deleted).held =
      (n.held.zipIdx.filter fun numbered => !deleted [numbered.2]).map fun numbered =>
        numbered.1.withoutRules fun place => deleted (numbered.2 :: place) := by
  -- Besides the rules nothing is deleted.
  have hstem : (n.body.stem.zipIdx.filter fun numbered => !deleted [numbered.2]) =
      n.body.stem.zipIdx := by
    refine List.filter_eq_self.2 fun numbered hnumbered => ?_
    obtain ⟨-, hlt, -⟩ := List.mem_zipIdx hnumbered
    cases hdeleted : deleted [numbered.2] with
    | false => rfl
    | true =>
      have htop : n.textAt? [] = some n := rfl
      obtain ⟨hle, -⟩ := h.rule htop hdeleted
      omega
  rw [Node.withoutRules, Node.held_editRules _ (deletion_nil deleted), deletion_editFrom,
    Node.editFrom_eq_map, n.held_eq, List.zipIdx_append, List.filter_append, List.map_append,
    hstem, Nat.zero_add]
  rfl

/-- A walk enters the nodes that are left, each after the deletion. -/
theorem Node.entered_withoutRules {deleted : List Nat → Bool} {n : Node}
    (h : DeletesImports deleted n) :
    (n.withoutRules deleted).entered false =
      ((n.entered false).zipIdx.filter fun numbered => !deleted [numbered.2]).map fun numbered =>
        numbered.1.withoutRules fun place => deleted (numbered.2 :: place) := by
  have himport : (n.withoutRules deleted).isImport = n.isImport := n.isImport_editRules _
  have hkind : (n.withoutRules deleted).kind = n.kind := n.kind_editRules _
  rw [Node.entered_eq_held, Node.entered_eq_held, himport, hkind]
  split
  · rfl
  · exact Node.held_withoutRules h

/-- A node at a deleted place is an import. -/
theorem DeletesImports.isImport {deleted : List Nat → Bool} {n m : Node} {place : List Nat}
    (h : DeletesImports deleted n) (hm : n.at? false place = some m)
    (hdeleted : deleted place = true) : m.isImport = true := by
  induction place generalizing n deleted with
  | nil => cases h.top.symm.trans hdeleted
  | cons i place ih =>
    rw [Node.at?_cons] at hm
    obtain ⟨c, hc, hm⟩ := Option.bind_eq_some_iff.1 hm
    have hheld := Node.held_of_entered hc
    cases hi : deleted [i] with
    | false => exact ih (h.below hheld hi) hm hdeleted
    | true =>
      -- The child is deleted, so it is an import, and a walk goes no further.
      have htop : n.textAt? [] = some n := rfl
      obtain ⟨-, c', hc', himport⟩ := h.rule htop hi
      cases hheld.symm.trans hc'
      cases place with
      | nil =>
        cases hm
        exact himport
      | cons j place =>
        rw [Node.at?, if_pos ⟨himport, rfl⟩] at hm
        cases hm

/-- Leaving out items that give nothing changes nothing. -/
theorem flatMap_filter_of_eq_nil {α β : Type} {keep : α → Bool} {f g : α → List β} {items : List α}
    (hkeep : ∀ a ∈ items, keep a = true → f a = g a)
    (hdrop : ∀ a ∈ items, keep a = false → g a = []) :
    (items.filter keep).flatMap f = items.flatMap g := by
  induction items with
  | nil => rfl
  | cons a items ih =>
    have hrest := ih (fun b hb => hkeep b (.tail _ hb)) fun b hb => hdrop b (.tail _ hb)
    cases ha : keep a with
    | true => simp [ha, hrest, hkeep a List.mem_cons_self ha]
    | false => simp [ha, hrest, hdrop a List.mem_cons_self ha]

/-- After a deletion a walk visits the nodes that are left, each after the deletion. -/
theorem Node.preorder_withoutRules {deleted : List Nat → Bool} {n : Node}
    (h : DeletesImports deleted n) :
    (n.withoutRules deleted).preorder false =
      (n.placed.filter fun entry => !deleted entry.1).map fun entry =>
        entry.2.withoutRules fun place => deleted (entry.1 ++ place) := by
  induction n using Node.children_induction generalizing deleted with
  | node n ih =>
    rw [Node.preorder_eq, Node.placed_eq]
    simp only [List.filter_cons, h.top, Bool.not_false, if_true, List.map_cons]
    congr 1
    rw [Node.entered_withoutRules h, List.flatMap_map, List.filter_flatMap, List.map_flatMap]
    refine flatMap_filter_of_eq_nil ?_ ?_
    · -- A child that stays is walked after the deletion below it.
      rintro ⟨c, i⟩ hc hi
      have hentered : (n.entered false)[i]? = some c := by
        simpa using List.mem_zipIdx_iff_getElem?.1 hc
      have hbelow := h.below (Node.held_of_entered hentered) (by simpa using hi)
      have hchild : c ∈ n.children :=
        Node.mem_children_of_mem_entered (List.mem_of_getElem? hentered)
      rw [ih c hchild hbelow, List.filter_map, List.map_map]
      rfl
    · -- A deleted child is an import, below which nothing is visited.
      rintro ⟨c, i⟩ hc hi
      have hentered : (n.entered false)[i]? = some c := by
        simpa using List.mem_zipIdx_iff_getElem?.1 hc
      have hdeleted : deleted [i] = true := by simpa using hi
      have htext : n.textAt? [] = some n := rfl
      obtain ⟨-, c', hc', himport⟩ := h.rule htext hdeleted
      cases (Node.held_of_entered hentered).symm.trans hc'
      have hplaced : c.placed = [([], c)] := by
        rw [Node.placed_eq, Node.entered, himport]
        rfl
      simp [hplaced, hdeleted]

end ImportSweep.Tree

namespace ImportSweep

open ImportSweep.Tree ImportSweep.Names

/-! ## What the analysis finds after a deletion -/

/-- The import after rules were deleted below its path. -/
def ImportStatement.withoutRules (deleted : List Nat → Bool) (statement : ImportStatement) :
    ImportStatement :=
  statement.editRules (deletion deleted)

/-- An import that holds nothing deleted stays as it is. -/
theorem ImportStatement.withoutRules_eq_self {deleted : List Nat → Bool}
    (h : ∀ place, place ≠ [] → deleted place = false) (statement : ImportStatement) :
    statement.withoutRules deleted = statement := by
  have hnone : deletion deleted = .none := by
    funext place first rules
    have hall : ((rules.zipIdx first).filter fun rule => !deleted (place ++ [rule.2])) =
        rules.zipIdx first := by
      refine List.filter_eq_self.2 fun rule _ => ?_
      rw [h (place ++ [rule.2]) (by simp)]
      rfl
    rw [deletion, hall, List.zipIdx_map_fst]
    rfl
  rw [ImportStatement.withoutRules, ImportStatement.editRules, hnone, Value.editRules_none]

variable {deleted : List Nat → Bool} {root : Node}

/-- The imports of a file after a deletion are those that are left. -/
theorem imports_withoutRules (h : DeletesImports deleted root) :
    imports (root.withoutRules deleted) =
      ((placedImports root).filter fun entry => !deleted entry.1).map fun entry =>
        entry.2.withoutRules fun place => deleted (entry.1 ++ place) := by
  rw [imports, Node.preorder_withoutRules h, placedImports]
  induction root.placed with
  | nil => rfl
  | cons entry entries ih =>
    have hedited : ImportStatement.ofNode?
        (entry.2.withoutRules fun place => deleted (entry.1 ++ place)) =
          (ImportStatement.ofNode? entry.2).map
            (·.withoutRules fun place => deleted (entry.1 ++ place)) := ofNode?_editRules _ _
    cases hkeep : deleted entry.1 with
    | true =>
      cases hnode : ImportStatement.ofNode? entry.2 with
      | none => simpa [hkeep, hnode] using ih
      | some statement => simpa [hkeep, hnode] using ih
    | false =>
      cases hnode : ImportStatement.ofNode? entry.2 with
      | none => simpa [hkeep, hnode, hedited] using ih
      | some statement => simpa [hkeep, hnode, hedited] using ih

/-- A file uses the same names after a deletion. -/
theorem usedNames_withoutRules (h : DeletesImports deleted root) {used : NameSet}
    (hused : usedNames root = .ok used) : usedNames (root.withoutRules deleted) = .ok used := by
  obtain ⟨names, hnames, hset⟩ := bind_eq_ok_iff.1 hused
  cases hset
  -- The names that each node by itself uses.
  let own : Node → List String := fun n => (usedBy n).toOption.getD []
  have hown : ∀ n ∈ root.preorder false, usedBy n = .ok (own n) := by
    intro n hn
    obtain ⟨texts, htexts⟩ := exists_mapM_eq_ok_iff.1 ⟨names, hnames⟩ n hn
    simp [own, htexts, Except.toOption]
  have hall : names = (root.preorder false).map own :=
    Except.ok.inj (hnames.symm.trans (mapM_eq_ok_map hown))
  have hplaced : ∀ entry ∈ root.placed, usedBy entry.2 = .ok (own entry.2) := by
    intro entry hentry
    refine hown entry.2 ?_
    rw [← root.map_snd_placed]
    exact List.mem_map_of_mem hentry
  have hleft : ((root.withoutRules deleted).preorder false).mapM usedBy =
      .ok ((root.placed.filter fun entry => !deleted entry.1).map fun entry => own entry.2) := by
    rw [Node.preorder_withoutRules h, mapM_eq_ok_iff, List.forall₂_map_left_iff,
      List.forall₂_map_right_iff, List.forall₂_same]
    intro entry hentry
    exact usedBy_editRules _ (hplaced entry (List.mem_filter.1 hentry).1)
  -- What is deleted are imports, and these use no names.
  have hsame : ((root.placed.filter fun entry => !deleted entry.1).map
      fun entry => own entry.2).flatten = names.flatten := by
    rw [hall, ← root.map_snd_placed, List.map_map, ← List.flatMap_def, ← List.flatMap_def]
    refine flatMap_filter_of_eq_nil (fun _ _ _ => rfl) fun entry hentry hkeep => ?_
    have himport := h.isImport (Node.at?_of_mem_placed hentry) (by simpa using hkeep)
    obtain ⟨place, index, body⟩ := entry
    cases body
    case importRule => rfl
    all_goals cases himport
  rw [usedNames, hleft]
  exact congrArg (fun names => Except.ok (NameSet.ofList names)) hsame

theorem importSupply_withoutRules (statement : ImportStatement) (deleted : List Nat → Bool) :
    importSupply (statement.withoutRules deleted) =
      (importSupply statement).map fun supply =>
        { supply with statement := statement.withoutRules deleted } :=
  importSupply_editRules (deletion deleted) statement

theorem isUnusedAmong_withoutRules (referenceOnly : Bool) (used : NameSet)
    (statement : ImportStatement) (deleted : List Nat → Bool) :
    isUnusedAmong referenceOnly used (statement.withoutRules deleted) =
      isUnusedAmong referenceOnly used statement :=
  isUnusedAmong_editRules (deletion deleted) referenceOnly used statement

/-- Deleting imports that stand as rules, used or not, does not change the verdict on the others:
what is reported after the deletion is what was reported before, in the same order and less the
deleted imports. An import is reported as it was, unless something was deleted below its own path.
When all that was reported is deleted, nothing is reported any more. -/
theorem unusedImports_withoutRules (referenceOnly : Bool) (root : Node)
    (unused : List ImportStatement) (deleted : List Nat → Bool)
    (hunused : unusedImports referenceOnly root = .ok unused)
    (hdeleted : ∀ place, deleted place = true → root.IsRuleImport place) :
    ∃ reported : List (List Nat × ImportStatement),
      reported.Sublist (placedImports root) ∧
      (∀ entry ∈ placedImports root, entry ∈ reported ↔ entry.2 ∈ unused) ∧
      reported.map Prod.snd = unused ∧
      unusedImports referenceOnly (root.withoutRules deleted) =
        .ok ((reported.filter fun entry => !deleted entry.1).map fun entry =>
          entry.2.withoutRules fun place => deleted (entry.1 ++ place)) ∧
      ((∀ entry ∈ reported, ∀ place, place ≠ [] → deleted (entry.1 ++ place) = false) →
        unusedImports referenceOnly (root.withoutRules deleted) =
          .ok ((reported.filter fun entry => !deleted entry.1).map Prod.snd)) ∧
      ((∀ entry ∈ reported, deleted entry.1 = true) →
        unusedImports referenceOnly (root.withoutRules deleted) = .ok []) := by
  have hdeletes := DeletesImports.of_isRuleImport hdeleted
  obtain ⟨used, hused, hsupplies, hverdicts⟩ := unusedImports_eq_ok_iff.1 hunused
  -- The verdict on an import is the same before and after the deletion.
  let reported := (placedImports root).filter fun entry => isUnusedAmong referenceOnly used entry.2
  have hreported : reported.map Prod.snd = unused := by
    rw [hverdicts, ← map_snd_placedImports, List.filter_map]
    rfl
  have hstands : ∀ entry ∈ placedImports root, entry.2 ∈ imports root := by
    intro entry hentry
    rw [← map_snd_placedImports]
    exact List.mem_map_of_mem hentry
  have hafter : unusedImports referenceOnly (root.withoutRules deleted) =
      .ok ((reported.filter fun entry => !deleted entry.1).map fun entry =>
        entry.2.withoutRules fun place => deleted (entry.1 ++ place)) := by
    refine unusedImports_eq_ok_iff.2 ⟨used, usedNames_withoutRules hdeletes hused, ?_, ?_⟩
    · intro statement hstatement
      rw [imports_withoutRules hdeletes] at hstatement
      obtain ⟨entry, hentry, rfl⟩ := List.mem_map.1 hstatement
      obtain ⟨supply, hsupply⟩ := hsupplies entry.2 (hstands entry (List.mem_filter.1 hentry).1)
      rw [importSupply_withoutRules, hsupply]
      exact ⟨_, rfl⟩
    · have hverdict : (isUnusedAmong referenceOnly used ∘ fun entry : List Nat × ImportStatement =>
          entry.2.withoutRules fun place => deleted (entry.1 ++ place)) =
            fun entry => isUnusedAmong referenceOnly used entry.2 := by
        funext entry
        exact isUnusedAmong_withoutRules referenceOnly used entry.2 _
      rw [imports_withoutRules hdeletes, List.filter_map, hverdict, List.filter_filter,
        List.filter_filter]
      simp only [Bool.and_comm]
  refine ⟨reported, List.filter_sublist, ?_, hreported, hafter, ?_, ?_⟩
  · intro entry hentry
    rw [hverdicts, List.mem_filter, List.mem_filter, and_iff_right hentry,
      and_iff_right (hstands entry hentry)]
  · -- Where nothing is deleted below an import, the import is the same.
    intro houtside
    rw [hafter]
    refine congrArg Except.ok (List.map_congr_left fun entry hentry => ?_)
    exact ImportStatement.withoutRules_eq_self (houtside entry (List.mem_filter.1 hentry).1) entry.2
  · intro hall
    have hnone : (reported.filter fun entry => !deleted entry.1) = [] := by
      refine List.filter_eq_nil_iff.2 fun entry hentry => ?_
      simp [hall entry hentry]
    rw [hafter, hnone]
    rfl

/-- In the file with two imports the first one is used. It goes, and the other is still reported. -/
theorem unusedImports_withoutRules_twoImports :
    ∃ statement, unusedImports false twoImports = .ok [statement] ∧
      twoImports.IsRuleImport [0] ∧
      unusedImports false (twoImports.withoutRules (· = [0])) = .ok [statement] := by
  have hrule : twoImports.IsRuleImport [0] := ⟨[], 0, twoImports, _, rfl, rfl, rfl, rfl⟩
  have hdeleted : ∀ place, decide (place = [0]) = true → twoImports.IsRuleImport place := by
    intro place hplace
    rw [of_decide_eq_true hplace]
    exact hrule
  obtain ⟨reported, hsublist, -, hreported, -, houtside, -⟩ :=
    unusedImports_withoutRules false twoImports _ (fun place => place = [0]) rfl hdeleted
  obtain ⟨entry, rfl, hentry⟩ := List.map_eq_singleton_iff.1 hreported
  -- The import that is reported stands in the block.
  obtain ⟨used, other, hplaced, hused⟩ : ∃ used other, placedImports twoImports =
      [([0], used), ([1, 1], other)] ∧ used.pathName = "a" := ⟨_, _, rfl, by decide⟩
  have hplace : entry.1 = [1, 1] := by
    have hmem := hsublist.subset List.mem_cons_self
    rw [hplaced] at hmem
    rcases List.mem_pair.1 hmem with rfl | rfl
    · rw [show used = _ from hentry] at hused
      exact absurd hused (by decide)
    · rfl
  have hafter := houtside fun other hother place _ => by
    rw [List.mem_singleton.1 hother, hplace]
    rfl
  refine ⟨entry.2, by rw [hentry]; rfl, hrule, ?_⟩
  rw [hafter]
  simp [hplace]

end ImportSweep
