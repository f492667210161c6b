import Mathlib.Data.List.Sort
import ImportSweep.Proofs.Bytes

/-!
# Spans of bytes

Spans are sorted, joined where they touch, and cut out of a text from the last to the first. The
joined spans cover the same bytes as the original ones (`covered_mergeSpans_iff`), and there is a
gap between any two of them (`mergeSpans_apart`). So no cut moves the bytes of a cut that is still
to be made, and what is left are the characters that no span covers (`eraseSpans_mergeSpans`).
-/

namespace ImportSweep.Source

/-- The byte lies in the span. -/
def Span.Covers (span : Span) (position : Nat) : Prop :=
  span.start ≤ position ∧ position < span.stop

/-- The byte lies in one of the spans. -/
def Covered (spans : List Span) (position : Nat) : Prop :=
  ∃ span ∈ spans, span.Covers position

instance (span : Span) (position : Nat) : Decidable (span.Covers position) :=
  inferInstanceAs (Decidable (_ ∧ _))

instance (spans : List Span) (position : Nat) : Decidable (Covered spans position) :=
  inferInstanceAs (Decidable (∃ span ∈ spans, span.Covers position))

theorem covered_cons_iff {span : Span} {spans : List Span} {position : Nat} :
    Covered (span :: spans) position ↔ span.Covers position ∨ Covered spans position := by
  simp [Covered]

/-- The span begins before it ends, and both at boundaries of the text. -/
structure Span.Fits (text : List Char) (span : Span) : Prop where
  /-- The end does not come before the beginning. -/
  le : span.start ≤ span.stop
  /-- The beginning does not cut a character. -/
  start : Boundary text span.start
  /-- The end does not cut a character. -/
  stop : Boundary text span.stop

/-- A span that fits covers all bytes of a character or none. -/
theorem Span.Fits.covers_add_iff {text before after : List Char} {c : Char} {span : Span}
    (h : span.Fits text) (htext : text = before ++ c :: after) {i : Nat} (hi : i < c.utf8Size) :
    span.Covers (byteLength before + i) ↔ span.Covers (byteLength before) := by
  have hstart := h.start.le_or_le htext
  have hstop := h.stop.le_or_le htext
  rw [Span.Covers, Span.Covers]
  omega

/-! ## Sorting -/

/-- The first span does not begin after the second. -/
def Span.Precedes (a b : Span) : Prop :=
  a.start ≤ b.start

instance : DecidableRel Span.Precedes :=
  fun a b => inferInstanceAs (Decidable (a.start ≤ b.start))

instance : Std.Total Span.Precedes :=
  ⟨fun a b => Nat.le_total a.start b.start⟩

instance : IsTrans Span Span.Precedes :=
  ⟨fun _ _ _ => Nat.le_trans⟩

theorem insertSpan_eq_orderedInsert (span : Span) (spans : List Span) :
    insertSpan span spans = spans.orderedInsert Span.Precedes span := by
  induction spans with
  | nil => rfl
  | cons first spans ih =>
    rw [insertSpan, List.orderedInsert_cons, ih]
    rfl

/-- Spans are sorted by insertion. -/
theorem sortSpans_eq_insertionSort (spans : List Span) :
    sortSpans spans = spans.insertionSort Span.Precedes := by
  induction spans with
  | nil => rfl
  | cons span spans ih =>
    rw [sortSpans, ih, insertSpan_eq_orderedInsert, List.insertionSort_cons]

theorem mem_sortSpans_iff {span : Span} {spans : List Span} :
    span ∈ sortSpans spans ↔ span ∈ spans := by
  rw [sortSpans_eq_insertionSort, List.mem_insertionSort]

theorem sortSpans_sorted (spans : List Span) : (sortSpans spans).Pairwise Span.Precedes := by
  rw [sortSpans_eq_insertionSort]
  exact List.pairwise_insertionSort _ spans

/-! ## Joining -/

/-- The span that the first of two becomes when it is joined with the second. -/
def Span.grown (current span : Span) : Span :=
  ⟨current.start, max current.stop span.stop⟩

theorem joinSpans_cons (current span : Span) (spans : List Span) :
    joinSpans current (span :: spans) =
      if span.start ≤ current.stop then joinSpans (current.grown span) spans
      else current :: joinSpans span spans :=
  rfl

/-- A span that grows keeps its place in the order. -/
theorem pairwise_grown {current span : Span} {spans : List Span}
    (h : (current :: span :: spans).Pairwise Span.Precedes) :
    (current.grown span :: spans).Pairwise Span.Precedes := by
  obtain ⟨hcurrent, hspans⟩ := List.pairwise_cons.1 h
  refine List.pairwise_cons.2 ⟨fun other hother => ?_, (List.pairwise_cons.1 hspans).2⟩
  exact hcurrent other (List.mem_cons_of_mem span hother)

/-- A span that grows still ends after its beginning. -/
theorem forall_le_grown {current span : Span} {spans : List Span}
    (h : ∀ other ∈ current :: span :: spans, other.start ≤ other.stop) :
    ∀ other ∈ current.grown span :: spans, other.start ≤ other.stop := by
  intro other hother
  rcases List.mem_cons.1 hother with rfl | hother
  · exact Nat.le_trans (h current List.mem_cons_self) (Nat.le_max_left _ _)
  · exact h other (.tail _ (.tail _ hother))

/-- Joined spans begin where a span begins and end where a span ends. -/
theorem exists_of_mem_joinSpans {current joined : Span} {spans : List Span}
    (h : joined ∈ joinSpans current spans) :
    (∃ span ∈ current :: spans, joined.start = span.start) ∧
      ∃ span ∈ current :: spans, joined.stop = span.stop := by
  induction spans generalizing current with
  | nil =>
    cases List.mem_singleton.1 h
    exact ⟨⟨joined, .head _, rfl⟩, joined, .head _, rfl⟩
  | cons span spans ih =>
    rw [joinSpans_cons] at h
    split at h
    · obtain ⟨⟨first, hfirst, hstart⟩, last, hlast, hstop⟩ := ih h
      constructor
      · rcases List.mem_cons.1 hfirst with rfl | hfirst
        · exact ⟨current, .head _, hstart⟩
        · exact ⟨first, .tail _ (.tail _ hfirst), hstart⟩
      · rcases List.mem_cons.1 hlast with rfl | hlast
        · -- The end of the span that grew is the later of the two ends.
          rcases Nat.le_total current.stop span.stop with hle | hle
          · exact ⟨span, .tail _ (.head _), hstop.trans (Nat.max_eq_right hle)⟩
          · exact ⟨current, .head _, hstop.trans (Nat.max_eq_left hle)⟩
        · exact ⟨last, .tail _ (.tail _ hlast), hstop⟩
    · rcases List.mem_cons.1 h with rfl | h
      · exact ⟨⟨joined, .head _, rfl⟩, joined, .head _, rfl⟩
      · obtain ⟨⟨first, hfirst, hstart⟩, last, hlast, hstop⟩ := ih h
        exact ⟨⟨first, .tail _ hfirst, hstart⟩, last, .tail _ hlast, hstop⟩

/-- A joined span ends after its beginning, when the spans do. -/
theorem le_of_mem_joinSpans {current joined : Span} {spans : List Span}
    (hle : ∀ span ∈ current :: spans, span.start ≤ span.stop)
    (h : joined ∈ joinSpans current spans) : joined.start ≤ joined.stop := by
  induction spans generalizing current with
  | nil => exact hle joined h
  | cons span spans ih =>
    rw [joinSpans_cons] at h
    split at h
    · exact ih (forall_le_grown hle) h
    · rcases List.mem_cons.1 h with rfl | h
      · exact hle joined List.mem_cons_self
      · exact ih (fun other hother => hle other (.tail _ hother)) h

/-- Spans in order are joined to spans with gaps between them. -/
theorem joinSpans_apart {current : Span} {spans : List Span}
    (hsorted : (current :: spans).Pairwise Span.Precedes) :
    (joinSpans current spans).Pairwise fun a b => a.stop < b.start := by
  induction spans generalizing current with
  | nil => exact List.pairwise_singleton _ _
  | cons span spans ih =>
    rw [joinSpans_cons]
    by_cases htouch : span.start ≤ current.stop
    · rw [if_pos htouch]
      exact ih (pairwise_grown hsorted)
    · have hspans := (List.pairwise_cons.1 hsorted).2
      rw [if_neg htouch]
      refine List.pairwise_cons.2 ⟨fun joined hjoined => ?_, ih hspans⟩
      -- All later spans begin after the first that does not touch.
      obtain ⟨⟨other, hother, hstart⟩, -⟩ := exists_of_mem_joinSpans hjoined
      have hprecedes : span.start ≤ other.start := by
        rcases List.mem_cons.1 hother with rfl | hother
        · exact Nat.le_refl _
        · exact (List.pairwise_cons.1 hspans).1 other hother
      omega

/-- Joining spans in order changes nothing about the bytes that they cover. -/
theorem covered_joinSpans_iff {current : Span} {spans : List Span} {position : Nat}
    (hsorted : (current :: spans).Pairwise Span.Precedes)
    (hle : ∀ span ∈ current :: spans, span.start ≤ span.stop) :
    Covered (joinSpans current spans) position ↔ Covered (current :: spans) position := by
  induction spans generalizing current with
  | nil => rfl
  | cons span spans ih =>
    obtain ⟨hcurrent, hspans⟩ := List.pairwise_cons.1 hsorted
    rw [joinSpans_cons]
    by_cases htouch : span.start ≤ current.stop
    · -- Two spans that touch are in order, so nothing lies between them.
      have hspan : current.start ≤ span.start := hcurrent span List.mem_cons_self
      have hcurrentLe := hle current List.mem_cons_self
      have hspanLe := hle span (.tail _ (.head _))
      rw [if_pos htouch, ih (pairwise_grown hsorted) (forall_le_grown hle)]
      simp only [covered_cons_iff, Span.Covers, Span.grown, ← or_assoc]
      refine or_congr_left ?_
      omega
    · rw [if_neg htouch, covered_cons_iff, ih hspans fun other hother => hle other (.tail _ hother),
        ← covered_cons_iff]

/-! ## Merging -/

/-- Merged spans have gaps between them. -/
theorem mergeSpans_apart (spans : List Span) :
    (mergeSpans spans).Pairwise fun a b => a.stop < b.start := by
  have hsorted := sortSpans_sorted spans
  rw [mergeSpans]
  split
  · exact List.Pairwise.nil
  · rename_i heq
    rw [heq] at hsorted
    exact joinSpans_apart hsorted

/-- Merged spans begin where a span begins and end where a span ends. -/
theorem exists_of_mem_mergeSpans {merged : Span} {spans : List Span}
    (h : merged ∈ mergeSpans spans) :
    (∃ span ∈ spans, merged.start = span.start) ∧ ∃ span ∈ spans, merged.stop = span.stop := by
  rw [mergeSpans] at h
  split at h
  · cases h
  · rename_i first rest heq
    obtain ⟨⟨first', hfirst, hstart⟩, last, hlast, hstop⟩ := exists_of_mem_joinSpans h
    rw [← heq, mem_sortSpans_iff] at hfirst hlast
    exact ⟨⟨first', hfirst, hstart⟩, last, hlast, hstop⟩

/-- Merging changes nothing about the bytes that are covered. -/
theorem covered_mergeSpans_iff {spans : List Span} {position : Nat}
    (hle : ∀ span ∈ spans, span.start ≤ span.stop) :
    Covered (mergeSpans spans) position ↔ Covered spans position := by
  have hsorted := sortSpans_sorted spans
  have hsort : Covered spans position ↔ Covered (sortSpans spans) position := by
    simp only [Covered, mem_sortSpans_iff]
  rw [hsort, mergeSpans]
  split
  · rename_i heq
    rw [heq]
  · rename_i first rest heq
    rw [heq] at hsorted ⊢
    refine covered_joinSpans_iff hsorted fun span hspan => hle span ?_
    rw [← mem_sortSpans_iff, heq]
    exact hspan

/-- Merged spans fit a text that the spans fit. -/
theorem Span.Fits.of_mem_mergeSpans {text : List Char} {spans : List Span}
    (hfits : ∀ span ∈ spans, span.Fits text) {merged : Span} (h : merged ∈ mergeSpans spans) :
    merged.Fits text := by
  obtain ⟨⟨first, hfirst, hstart⟩, last, hlast, hstop⟩ := exists_of_mem_mergeSpans h
  refine ⟨?_, hstart ▸ (hfits first hfirst).start, hstop ▸ (hfits last hlast).stop⟩
  rw [mergeSpans] at h
  split at h
  · cases h
  · rename_i heq
    refine le_of_mem_joinSpans (fun span hspan => (hfits span ?_).le) h
    rw [← mem_sortSpans_iff, heq]
    exact hspan

/-! ## Cutting out -/

/-- Cutting out one span, after what comes behind it has been dealt with. -/
theorem Span.erase_append {span : Span} {before middle : List Char} (after : List Char)
    (hstart : span.start = byteLength before) (hstop : span.stop = byteLength (before ++ middle)) :
    span.erase (before ++ middle ++ after) = before ++ after := by
  rw [Span.erase, hstart, hstop, dropBytes_append, List.append_assoc, takeBytes_append]

/-- Cutting out spans with gaps between them leaves the characters that no span covers. -/
theorem eraseSpans_eq_keepFrom {text : List Char} {spans : List Span}
    (hfits : ∀ span ∈ spans, span.Fits text)
    (hapart : spans.Pairwise fun a b => a.stop < b.start) :
    eraseSpans spans text = keepFrom (Covered spans) 0 text := by
  induction spans with
  | nil =>
    refine (keepFrom_eq_self fun p _ _ => ?_).symm
    rintro ⟨span, hspan, -⟩
    cases hspan
  | cons span spans ih =>
    obtain ⟨hspan, hspans⟩ := List.pairwise_cons.1 hapart
    have hfit := hfits span List.mem_cons_self
    have hrest := ih (fun other hother => hfits other (.tail _ hother)) hspans
    obtain ⟨before, middle, after, rfl, hstart, hstop⟩ := hfit.start.split hfit.stop hfit.le
    -- The later spans leave all that comes before the end of this one as it is.
    have hlater : ∀ p, p < span.stop → ¬ Covered spans p := by
      rintro p hp ⟨other, hother, hcovers, -⟩
      have := hspan other hother
      omega
    have hkept : keepFrom (Covered spans) 0 (before ++ middle ++ after) =
        before ++ middle ++ keepFrom (Covered spans) span.stop after := by
      rw [keepFrom_append, Nat.zero_add, ← hstop,
        keepFrom_eq_self fun p _ hp => hlater p (by omega)]
    have hbefore : keepFrom (Covered (span :: spans)) 0 before = before := by
      refine keepFrom_eq_self fun p _ hp => ?_
      rw [covered_cons_iff, not_or]
      have := hfit.le
      exact ⟨fun hcovers => by have := hcovers.1; omega, hlater p (by omega)⟩
    rw [byteLength_append] at hstop
    have hmiddle : keepFrom (Covered (span :: spans)) span.start middle = [] :=
      keepFrom_eq_nil fun p hle hlt => covered_cons_iff.2 (.inl ⟨hle, by omega⟩)
    have hafter : keepFrom (Covered (span :: spans)) span.stop after =
        keepFrom (Covered spans) span.stop after := by
      refine keepFrom_congr fun p hle _ => ?_
      rw [covered_cons_iff, or_iff_right fun hcovers => Nat.not_lt.2 hle hcovers.2]
    calc eraseSpans (span :: spans) (before ++ middle ++ after)
        = span.erase (eraseSpans spans (before ++ middle ++ after)) := rfl
      _ = before ++ keepFrom (Covered spans) span.stop after := by
        rw [hrest, hkept, Span.erase_append _ hstart (hstop.trans (byteLength_append _ _).symm)]
      _ = keepFrom (Covered (span :: spans)) 0 (before ++ middle ++ after) := by
        rw [keepFrom_append, keepFrom_append, byteLength_append, Nat.zero_add, Nat.zero_add,
          ← hstop, ← hstart, hbefore, hmiddle, hafter, List.append_nil]

/-- Cutting out merged spans leaves the characters that no span covers. -/
theorem eraseSpans_mergeSpans {text : List Char} {spans : List Span}
    (hfits : ∀ span ∈ spans, span.Fits text) :
    eraseSpans (mergeSpans spans) text = keepFrom (Covered spans) 0 text := by
  have hmerged : ∀ merged ∈ mergeSpans spans, merged.Fits text :=
    fun merged hmerged => .of_mem_mergeSpans hfits hmerged
  rw [eraseSpans_eq_keepFrom hmerged (mergeSpans_apart spans)]
  exact keepFrom_congr fun p _ _ => covered_mergeSpans_iff fun span hspan => (hfits span hspan).le

end ImportSweep.Source
