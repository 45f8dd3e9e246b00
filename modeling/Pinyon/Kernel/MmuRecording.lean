import Pinyon.Kernel.MmuStock

namespace Pinyon
namespace Kernel
namespace Mmu

open Pine
open PageTables (Grows grows_setL1 grows_setL2 grows_newL2Table)

/-!
# What recording writes

Both ways of recording only write over faults, so what was recorded before stays.
Each entry is described at the turn of the loop that writes it; the turns behind
it keep it for the same reason.
-/

variable {tables after : PageTables} {turns : Nat}

/-! ## Sections -/

section Sections

variable {physRegion virtRegion : SectionRegion} {l1Offset : Nat}

theorem recordSections_spec
    (ran : recordSections physRegion virtRegion turns l1Offset tables = some after) :
    Grows tables after ∧
      (forall slot, L1Type.ofEntry (after.l1Table slot) = .L2Ptr ->
        after.l1Table slot = tables.l1Table slot) ∧
      (forall index, l1Offset ≤ index -> index < l1Offset + turns ->
        after.l1Table (L1Table.slot (virtRegion.ptr .aarch32 index)) =
          Section.entry (physRegion.ptr .aarch32 index)) := by
  induction turns generalizing l1Offset tables with
  | zero =>
      cases ran
      exact ⟨.refl _, fun _ _ => rfl, fun index lower upper => absurd upper (by omega)⟩
  | succ turns inductionHypothesis =>
      rw [recordSections] at ran
      split at ran
      · next fault =>
          rcases inductionHypothesis ran with ⟨grows, kept, written⟩
          refine ⟨(grows_setL1 fault _).trans grows, ?_, ?_⟩
          · intro slot pointed
            have same := kept slot pointed
            rw [same] at pointed
            by_cases here : slot = L1Table.slot (virtRegion.ptr .aarch32 l1Offset)
            · rw [here, PageTables.setL1_self, ofEntry_section] at pointed
              cases pointed
            · rw [same, PageTables.setL1_of_ne tables _ here]
          · intro index lower upper
            rcases Nat.eq_or_lt_of_le lower with rfl | further
            · have isSection : L1Type.ofEntry ((tables.setL1
                  (L1Table.slot (virtRegion.ptr .aarch32 l1Offset))
                  (Section.entry (physRegion.ptr .aarch32 l1Offset))).l1Table
                    (L1Table.slot (virtRegion.ptr .aarch32 l1Offset))) = .Section := by
                rw [PageTables.setL1_self, ofEntry_section]
              rw [grows.l1 _ (by rw [isSection]; decide), PageTables.setL1_self]
            · exact written index further (by omega)
      · cases ran

end Sections

/-! ## Pages -/

section Pages

variable {physRegion virtRegion : PageRegion} {l2Table l1Offset l2Offset : Nat}

/-- The inner loop fills one table. -/
theorem recordPages_spec
    (ran : recordPages physRegion virtRegion l2Table l1Offset turns l2Offset tables = some after) :
    after.l1Table = tables.l1Table ∧
      (forall table page, L2Type.ofEntry (tables.l2Tables table page) ≠ .Fault ->
        after.l2Tables table page = tables.l2Tables table page) ∧
      (forall index, l2Offset ≤ index -> index < l2Offset + turns ->
        l1Offset * l2NumEntries + index < virtRegion.length ->
        after.l2Tables l2Table
            (L2Table.slot (virtRegion.ptr .aarch32 (l1Offset * l2NumEntries + index))) =
          Page.entry (physRegion.ptr .aarch32 (l1Offset * l2NumEntries + index))) := by
  induction turns generalizing l2Offset tables with
  | zero =>
      cases ran
      exact ⟨rfl, fun _ _ _ => rfl, fun index lower upper => absurd upper (by omega)⟩
  | succ turns inductionHypothesis =>
      rw [recordPages] at ran
      split at ran
      · dsimp only at ran
        split at ran
        · next fault =>
            rcases inductionHypothesis ran with ⟨l1Same, kept, written⟩
            refine ⟨l1Same, ?_, ?_⟩
            · intro table page taken
              have same : (tables.setL2 l2Table
                  (L2Table.slot (virtRegion.ptr .aarch32 (l1Offset * l2NumEntries + l2Offset)))
                  (Page.entry (physRegion.ptr .aarch32 (l1Offset * l2NumEntries + l2Offset)))
                    ).l2Tables table page = tables.l2Tables table page := by
                apply PageTables.setL2_of_ne
                by_contra both
                rw [not_or, not_not, not_not] at both
                rw [both.1, both.2] at taken
                exact taken fault
              rw [kept table page (same ▸ taken), same]
            · intro index lower upper inside
              rcases Nat.eq_or_lt_of_le lower with rfl | further
              · have isPage := ofEntry_page
                  (physRegion.ptr .aarch32 (l1Offset * l2NumEntries + l2Offset))
                rw [kept _ _ (by rw [PageTables.setL2_self, isPage]; decide), PageTables.setL2_self]
              · exact written index further (by omega) inside
        · cases ran
      · next outside =>
          cases ran
          exact ⟨rfl, fun _ _ _ => rfl, fun index lower _ inside => absurd inside (by omega)⟩

theorem recordPages_grows
    (ran : recordPages physRegion virtRegion l2Table l1Offset turns l2Offset tables = some after) :
    Grows tables after := by
  rcases recordPages_spec ran with ⟨l1Same, kept, _⟩
  refine ⟨fun slot _ => by rw [l1Same], fun slot page _ taken => kept _ page taken⟩

end Pages

/-! ## Recording with a stock of tables -/

section Stock

variable {mmu final : PageAllocator} {live : List Allocation} {depth virtPtr : Nat}

/-- A state with fewer faults, and with a stock that may have shrunk. -/
structure Advances (before : PageAllocator) (live : List Allocation) (after : PageAllocator)
    (liveAfter : List Allocation) : Prop where
  stocked : Stocked after liveAfter
  grows : Grows before.tables after.tables
  kept : live ⊆ liveAfter

theorem Advances.refl (stocked : Stocked mmu live) : Advances mmu live mmu live :=
  ⟨stocked, .refl _, fun _ member => member⟩

theorem Advances.trans {middle : PageAllocator} {liveMiddle liveFinal : List Allocation}
    (first : Advances mmu live middle liveMiddle)
    (second : Advances middle liveMiddle final liveFinal) : Advances mmu live final liveFinal :=
  ⟨second.stocked, first.grows.trans second.grows, fun _ member => second.kept (first.kept member)⟩

/-- An address whose L1 entry points to a table. -/
def PointsTo (tables : PageTables) (virtPtr l2Table : Nat) : Prop :=
  L1Type.ofEntry (tables.l1Table (L1Table.slot virtPtr)) = .L2Ptr ∧
    L2Ptr.l2Table (tables.l1Table (L1Table.slot virtPtr)) = l2Table

theorem PointsTo.grows {l2Table : Nat} {before after : PageTables}
    (points : PointsTo before virtPtr l2Table) (grows : Grows before after) :
    PointsTo after virtPtr l2Table := by
  rw [PointsTo, grows.l1 _ (by rw [points.1]; decide)]
  exact points

/-- A fresh table is cleared and pointed to. -/
theorem Stocked.place (stocked : Stocked mmu live) {alloc : Allocation} (fresh : alloc ∉ live)
    {slab : L2TableAllocator}
    (stockedAfter : Stocked { mmu with l2TableAllocator := slab } (alloc :: live))
    (fault : L1Type.ofEntry (mmu.tables.l1Table (L1Table.slot virtPtr)) = .Fault) :
    Advances mmu live { mmu with
        tables := (mmu.tables.newL2Table alloc.ptr).setL1 (L1Table.slot virtPtr)
          (L2Ptr.entry alloc.ptr)
        l2TableAllocator := slab } (alloc :: live) ∧
      PointsTo ((mmu.tables.newL2Table alloc.ptr).setL1 (L1Table.slot virtPtr)
        (L2Ptr.entry alloc.ptr)) virtPtr alloc.ptr := by
  have placed := stockedAfter.placed List.mem_cons_self
  have found := l2Table_l2Ptr placed.1 placed.2
  have unused : forall slot, L1Type.ofEntry (mmu.tables.l1Table slot) = .L2Ptr ->
      L2Ptr.l2Table (mmu.tables.l1Table slot) ≠ alloc.ptr := by
    intro slot pointed same
    rcases stocked.pointed slot pointed with ⟨other, member, here⟩
    have one := stockedAfter.ptr_injective (List.mem_cons_of_mem _ member) List.mem_cons_self
      (here.trans same)
    exact fresh (one ▸ member)
  have clear : L1Type.ofEntry ((mmu.tables.newL2Table alloc.ptr).l1Table (L1Table.slot virtPtr)) =
      .Fault := fault
  refine ⟨⟨⟨stockedAfter.cells, stockedAfter.many, stockedAfter.spare, ?_⟩, ?_, ?_⟩, ?_⟩
  · intro slot pointed
    dsimp only at pointed ⊢
    by_cases here : slot = L1Table.slot virtPtr
    · rw [here, PageTables.setL1_self, found]
      exact ⟨alloc, List.mem_cons_self, rfl⟩
    · rw [PageTables.setL1_of_ne _ _ here] at pointed ⊢
      exact stockedAfter.pointed slot pointed
  · exact (grows_newL2Table unused).trans (grows_setL1 clear _)
  · exact fun _ member => List.mem_cons_of_mem _ member
  · rw [PointsTo, PageTables.setL1_self]
    exact ⟨ofEntry_l2Ptr _, found⟩

/-- A slot gets a table, unless something larger is recorded there. -/
theorem Stocked.l2TableOf (stocked : Stocked mmu live) {answer : Option Nat}
    (ran : mmu.l2TableOf (PageAllocator.tryReserveL2TableEntry depth) virtPtr 0 =
      some (answer, final)) :
    Exists fun l2Table => answer = some l2Table ∧ PointsTo final.tables virtPtr l2Table ∧
      Exists fun liveAfter => Advances mmu live final liveAfter := by
  rw [PageAllocator.l2TableOf] at ran
  dsimp only at ran
  cases type : L1Type.ofEntry (mmu.tables.l1Table (L1Table.slot virtPtr)) with
  | Section => simp [type] at ran
  | SuperSection => simp [type] at ran
  | L2Ptr =>
      rw [type] at ran
      cases ran
      exact ⟨_, rfl, ⟨type, rfl⟩, live, .refl stocked⟩
  | Fault =>
      rw [type] at ran
      rcases Option.bind_eq_some_iff.mp ran with ⟨⟨obtained, middle⟩, answered, ran⟩
      rw [PageAllocator.obtainL2Table, if_neg (not_not.mpr rfl)] at answered
      rcases Option.bind_eq_some_iff.mp answered with ⟨⟨alloc, reserved⟩, outcome, answered⟩
      rcases stocked.reserve outcome with ⟨succeeded, stockedAfter, same⟩
      have fresh : alloc ∉ live := by
        have nodup := stockedAfter.cells.nodup
        rw [List.nodup_cons] at nodup
        exact nodup.1
      dsimp only at answered
      rw [if_pos succeeded] at answered
      cases answered
      rw [same] at ran stockedAfter
      cases ran
      rcases stocked.place fresh stockedAfter type with ⟨advances, points⟩
      exact ⟨_, rfl, points, _, advances⟩

/-- A page of the regions, given by the loop counters, is in the tables. -/
def PageRecorded (tables : PageTables) (physRegion virtRegion : PageRegion)
    (l1Offset l2Offset : Nat) : Prop :=
  Exists fun l2Table =>
    PointsTo tables (virtRegion.ptr .aarch32 (l1Offset * l2NumEntries)) l2Table ∧
    tables.l2Tables l2Table
        (L2Table.slot (virtRegion.ptr .aarch32 (l1Offset * l2NumEntries + l2Offset))) =
      Page.entry (physRegion.ptr .aarch32 (l1Offset * l2NumEntries + l2Offset))

theorem PageRecorded.grows {before after : PageTables} {physRegion virtRegion : PageRegion}
    {l1Offset l2Offset : Nat} (recorded : PageRecorded before physRegion virtRegion l1Offset l2Offset)
    (grows : Grows before after) : PageRecorded after physRegion virtRegion l1Offset l2Offset := by
  rcases recorded with ⟨l2Table, points, entry⟩
  refine ⟨l2Table, points.grows grows, ?_⟩
  have same := grows.l2 _ (L2Table.slot
    (virtRegion.ptr .aarch32 (l1Offset * l2NumEntries + l2Offset))) points.1
  rw [points.2, entry, ofEntry_page] at same
  exact same (by decide)

/-- The outer loop: recording does not fail, and records every page. -/
theorem Stocked.recordSlots {physRegion virtRegion : PageRegion} {l1Offset : Nat} {recorded : Bool}
    (stocked : Stocked mmu live)
    (ran : PageAllocator.recordSlots (PageAllocator.tryReserveL2TableEntry depth) physRegion virtRegion
      0 turns l1Offset mmu = some (recorded, final)) :
    recorded = true ∧ (Exists fun liveAfter => Advances mmu live final liveAfter) ∧
      forall slot, l1Offset ≤ slot -> slot < l1Offset + turns ->
        forall index, index < l2NumEntries -> slot * l2NumEntries + index < virtRegion.length ->
          PageRecorded final.tables physRegion virtRegion slot index := by
  induction turns generalizing l1Offset mmu live with
  | zero =>
      cases ran
      exact ⟨rfl, ⟨live, .refl stocked⟩, fun slot lower upper => absurd upper (by omega)⟩
  | succ turns inductionHypothesis =>
      rw [PageAllocator.recordSlots] at ran
      rcases Option.bind_eq_some_iff.mp ran with ⟨⟨answer, reserved⟩, obtained, ran⟩
      rcases stocked.l2TableOf obtained with ⟨l2Table, rfl, points, liveReserved, advances⟩
      rcases Option.bind_eq_some_iff.mp ran with ⟨filled, written, ran⟩
      have growsFilled := recordPages_grows written
      rcases recordPages_spec written with ⟨sameL1, _, entries⟩
      have stockedFilled : Stocked { reserved with tables := filled } liveReserved := by
        refine ⟨advances.stocked.cells, advances.stocked.many, advances.stocked.spare, ?_⟩
        rw [show PageAllocator.tables { reserved with tables := filled } = filled from rfl, sameL1]
        exact advances.stocked.pointed
      rcases inductionHypothesis stockedFilled ran with ⟨success, ⟨liveAfter, onward⟩, later⟩
      refine ⟨success, ⟨liveAfter, onward.stocked, ?_, ?_⟩, ?_⟩
      · exact (advances.grows.trans growsFilled).trans onward.grows
      · exact fun _ member => onward.kept (advances.kept member)
      · intro slot lower upper index small inside
        rcases Nat.eq_or_lt_of_le lower with rfl | further
        · have here : PageRecorded filled physRegion virtRegion l1Offset index :=
            ⟨l2Table, points.grows growsFilled,
              entries index (Nat.zero_le _) (by omega) inside⟩
          exact here.grows onward.grows
        · exact later slot further (by omega) index small inside

theorem Stocked.tryRecordPageInL1 {physRegion virtRegion : PageRegion} {recorded : Bool}
    (stocked : Stocked mmu live)
    (ran : mmu.tryRecordPageInL1 depth physRegion virtRegion 0 = some (recorded, final)) :
    recorded = true ∧ (Exists fun liveAfter => Advances mmu live final liveAfter) ∧
      forall slot, slot < PageAllocator.numL1EntriesToWalk virtRegion ->
        forall index, index < l2NumEntries -> slot * l2NumEntries + index < virtRegion.length ->
          PageRecorded final.tables physRegion virtRegion slot index := by
  rcases stocked.recordSlots ran with ⟨success, advances, entries⟩
  exact ⟨success, advances, fun slot small => entries slot (Nat.zero_le _) (by omega)⟩

theorem Stocked.tryRecordSectionInL1 {physRegion virtRegion : SectionRegion} {recorded : Bool}
    (stocked : Stocked mmu live)
    (ran : mmu.tryRecordSectionInL1 physRegion virtRegion = some (recorded, final)) :
    Advances mmu live final live ∧ (recorded = true ->
      forall index, index < virtRegion.length ->
        final.tables.l1Table (L1Table.slot (virtRegion.ptr .aarch32 index)) =
          Section.entry (physRegion.ptr .aarch32 index)) := by
  rw [PageAllocator.tryRecordSectionInL1] at ran
  split at ran
  · cases ran
    exact ⟨.refl stocked, fun wrong => absurd wrong Bool.false_ne_true⟩
  · rcases Option.bind_eq_some_iff.mp ran with ⟨tables, written, ran⟩
    rcases recordSections_spec written with ⟨grows, kept, entries⟩
    cases ran
    refine ⟨⟨⟨stocked.cells, stocked.many, stocked.spare, ?_⟩, grows, fun _ member => member⟩,
      fun _ index inside => entries index (Nat.zero_le _) (by omega)⟩
    intro slot pointed
    dsimp only at pointed ⊢
    have same := kept slot pointed
    rw [same] at pointed ⊢
    exact stocked.pointed slot pointed

end Stock

end Mmu
end Kernel
end Pinyon
