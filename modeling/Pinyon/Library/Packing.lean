import Mathlib

namespace Pinyon
namespace Library

universe u

/-!
# Packings of blocks

An allocator divides what it was given into blocks and promises that no two of
them share a cell.  Blocks are sets here, so the same laws serve an allocator
of bytes and an allocator of pages: a packing is a list of pairwise disjoint
sets, and its cover is what they hold together.

The order of the list never matters, which is what lets a block move from the
free list to the caller and back.  Splitting a block keeps the cover, and
merging some of them keeps what they held.
An operation that hands blocks around without losing any is a repacking.
-/

variable {Cell : Type u}

/-- No two blocks of the list share a cell. -/
def Packed (blocks : List (Set Cell)) : Prop :=
  blocks.Pairwise Disjoint

/-- Everything that the blocks of the list hold together. -/
def cover (blocks : List (Set Cell)) : Set Cell :=
  fun cell => Exists fun block => block ∈ blocks ∧ cell ∈ block

theorem mem_cover {blocks : List (Set Cell)} {cell : Cell} :
    cell ∈ cover blocks <-> Exists fun block => block ∈ blocks ∧ cell ∈ block :=
  Iff.rfl

@[simp] theorem cover_nil : cover ([] : List (Set Cell)) = ∅ := by
  ext cell
  simp [mem_cover]

@[simp] theorem cover_cons (block : Set Cell) (rest : List (Set Cell)) :
    cover (block :: rest) = block ∪ cover rest := by
  ext cell
  simp [mem_cover]

@[simp] theorem cover_append (first second : List (Set Cell)) :
    cover (first ++ second) = cover first ∪ cover second := by
  induction first with
  | nil => simp
  | cons block rest inductionHypothesis =>
      simp [inductionHypothesis, Set.union_assoc]

theorem subset_cover {blocks : List (Set Cell)} {block : Set Cell} (member : block ∈ blocks) :
    block ⊆ cover blocks :=
  fun _ inside => ⟨block, member, inside⟩

theorem cover_perm {first second : List (Set Cell)} (same : first.Perm second) :
    cover first = cover second := by
  ext cell
  simp only [mem_cover, same.mem_iff]

theorem disjoint_cover {block : Set Cell} {blocks : List (Set Cell)} :
    Disjoint block (cover blocks) <-> forall other, other ∈ blocks -> Disjoint block other := by
  induction blocks with
  | nil => simp
  | cons head rest inductionHypothesis =>
      simp [Set.disjoint_union_right, inductionHypothesis]

@[simp] theorem packed_nil : Packed ([] : List (Set Cell)) :=
  List.Pairwise.nil

/-- The form in which every law below is used: the first block avoids all the
others together. -/
@[simp] theorem packed_cons {block : Set Cell} {rest : List (Set Cell)} :
    Packed (block :: rest) <-> Disjoint block (cover rest) ∧ Packed rest := by
  rw [Packed, List.pairwise_cons, disjoint_cover]
  rfl

/-- Blocks that are apart hold as many cells as all of them. -/
theorem encard_cover {blocks : List (Set Cell)} (packed : Packed blocks) :
    (cover blocks).encard = (blocks.map Set.encard).sum := by
  induction blocks with
  | nil => simp
  | cons block rest inductionHypothesis =>
      rcases packed_cons.mp packed with ⟨avoids, packed⟩
      rw [cover_cons, Set.encard_union_eq avoids, inductionHypothesis packed, List.map_cons,
        List.sum_cons]

theorem packed_perm {first second : List (Set Cell)} (same : first.Perm second) :
    Packed first <-> Packed second :=
  same.pairwise_iff fun avoids => avoids.symm

theorem packed_append {first second : List (Set Cell)} :
    Packed (first ++ second) <->
      Packed first ∧ Packed second ∧ Disjoint (cover first) (cover second) := by
  induction first with
  | nil => simp
  | cons block rest inductionHypothesis =>
      simp only [List.cons_append, packed_cons, cover_append, cover_cons, inductionHypothesis,
        Set.disjoint_union_left, Set.disjoint_union_right]
      constructor
      · rintro ⟨⟨inFirst, inSecond⟩, first, second, apart⟩
        exact ⟨⟨inFirst, first⟩, second, inSecond, apart⟩
      · rintro ⟨⟨inFirst, first⟩, second, inSecond, apart⟩
        exact ⟨⟨inFirst, inSecond⟩, first, second, apart⟩

namespace Packed

variable {block left right : Set Cell} {rest : List (Set Cell)}

/-- A block may be replaced by two disjoint parts of itself. -/
theorem split (packed : Packed (block :: rest)) (apart : Disjoint left right)
    (leftWithin : left ⊆ block) (rightWithin : right ⊆ block) :
    Packed (left :: right :: rest) := by
  rw [packed_cons] at packed
  simp only [packed_cons, cover_cons, Set.disjoint_union_right]
  exact ⟨⟨apart, packed.1.mono_left leftWithin⟩, packed.1.mono_left rightWithin, packed.2⟩

/-- Several blocks may be replaced by one part of what they hold together. -/
theorem merge {gone : List (Set Cell)} (packed : Packed (gone ++ rest))
    (within : block ⊆ cover gone) : Packed (block :: rest) := by
  rw [packed_append] at packed
  exact packed_cons.mpr ⟨packed.2.2.mono_left within, packed.2.1⟩

/-- A block joins the packing when it avoids all of it. -/
theorem insert (packed : Packed rest) (avoids : Disjoint block (cover rest)) :
    Packed (block :: rest) :=
  packed_cons.mpr ⟨avoids, packed⟩

end Packed

/-! ## Repacking -/

/-- The same cells are divided differently, and disjointly if they were before. -/
structure Repacks (before after : List (Set Cell)) : Prop where
  packed : Packed before -> Packed after
  cover : cover after = cover before

namespace Repacks

variable {before middle after rest rest' : List (Set Cell)} {block left right : Set Cell}

theorem refl (blocks : List (Set Cell)) : Repacks blocks blocks :=
  ⟨id, rfl⟩

theorem trans (first : Repacks before middle) (second : Repacks middle after) :
    Repacks before after :=
  ⟨second.packed ∘ first.packed, second.cover.trans first.cover⟩

theorem of_perm (same : before.Perm after) : Repacks before after :=
  ⟨(packed_perm same).mp, (cover_perm same).symm⟩

/-- Other blocks do not notice. -/
theorem append (repacks : Repacks before after) (rest : List (Set Cell)) :
    Repacks (before ++ rest) (after ++ rest) := by
  constructor
  · rw [packed_append, packed_append, repacks.cover]
    exact fun parts => ⟨repacks.packed parts.1, parts.2⟩
  · rw [cover_append, cover_append, repacks.cover]

theorem cons (block : Set Cell) (repacks : Repacks before after) :
    Repacks (block :: before) (block :: after) := by
  constructor
  · rw [packed_cons, packed_cons, repacks.cover]
    exact fun parts => ⟨parts.1, repacks.packed parts.2⟩
  · rw [cover_cons, cover_cons, repacks.cover]

/-- A block is divided in two. -/
theorem split (apart : Disjoint left right) (whole : left ∪ right = block) :
    Repacks (block :: rest) (left :: right :: rest) := by
  constructor
  · exact fun packed => packed.split apart (whole ▸ Set.subset_union_left)
      (whole ▸ Set.subset_union_right)
  · rw [cover_cons, cover_cons, cover_cons, ← Set.union_assoc, whole]

end Repacks

end Library
end Pinyon
