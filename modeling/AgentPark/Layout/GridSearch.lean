import Mathlib.Algebra.Order.Ring.Abs
import Mathlib.Data.Finset.Prod
import Mathlib.Data.Prod.Lex
import Mathlib.Data.Set.Finite.Basic
import AgentPark.Lib.BestFirst

/-!
# The nearest free cells of a grid

`find_available_grid_origin` looks for a place for a rectangle of cells among occupied ones.
-/

namespace AgentPark.Layout

open Lib

/-- A cell of the grid: its column and its row. -/
abbrev Cell := ℤ × ℤ

/-- `range(first, first + max(1, span))`. -/
def spanRange (first span : ℤ) : Finset ℤ :=
  (Finset.range (max 1 span).toNat).image fun step : ℕ => first + step

/-- `grid_rectangle_cells` -/
def gridRectangleCells (gridX gridY spanX spanY : ℤ) : Finset Cell :=
  spanRange gridX spanX ×ˢ spanRange gridY spanY

/-- `available`, inside `find_available_grid_origin`. -/
def available (occupied : Finset Cell) (spanX spanY : ℤ) (origin : Cell) : Bool :=
  decide (gridRectangleCells origin.1 origin.2 spanX spanY ∩ occupied = ∅)

def defaultGridColumns : Nat := 4

/-- The loop without a preferred origin, from an index on. -/
def rowSearch (occupied : Finset Cell) (spanX spanY : ℤ) : Nat → Nat → Option Cell
  | 0, _ => none
  | fuel + 1, index =>
    let candidate : Cell := ((index % defaultGridColumns : Nat), (index / defaultGridColumns : Nat))
    if available occupied spanX spanY candidate then some candidate
    else rowSearch occupied spanX spanY fuel (index + 1)

def clamp (preferred : Cell) : Cell := (max 0 preferred.1, max 0 preferred.2)

/-- The entry of the heap for a cell. -/
def searchKey (preferred scale : Cell) (cell : Cell) : ℤ ×ₗ ℤ ×ₗ ℤ :=
  toLex (((cell.1 - (clamp preferred).1) * max 1 scale.1) ^ 2 +
    ((cell.2 - (clamp preferred).2) * max 1 scale.2) ^ 2, toLex (cell.2, cell.1))

def neighbours (cell : Cell) : List Cell :=
  [(cell.1 - 1, cell.2), (cell.1 + 1, cell.2), (cell.1, cell.2 - 1), (cell.1, cell.2 + 1)].filter
    fun next => 0 ≤ next.1 ∧ 0 ≤ next.2

/-- `fuel` bounds the turns of the loops, which have no bound. -/
def findAvailableGridOrigin (fuel : Nat) (occupied : Finset Cell) (spanX spanY : ℤ)
    (preferred : Option Cell) (distanceScale : Cell) : Option Cell :=
  match preferred with
  | none => rowSearch occupied spanX spanY fuel 0
  | some preferred =>
    bestFirst (searchKey preferred distanceScale) neighbours (available occupied spanX spanY) fuel
      [clamp preferred] [clamp preferred]

/-! ### Places -/

section
variable {occupied : Finset Cell} {spanX spanY : ℤ} {origin cell : Cell}

theorem mem_spanRange {first span place : ℤ} :
    place ∈ spanRange first span ↔ first ≤ place ∧ place < first + max 1 span := by
  rw [spanRange, Finset.mem_image]
  constructor
  · rintro ⟨step, mem, rfl⟩
    rw [Finset.mem_range] at mem
    omega
  · rintro ⟨le, less⟩
    exact ⟨(place - first).toNat, Finset.mem_range.mpr (by omega), by omega⟩

theorem mem_gridRectangleCells {gridX gridY : ℤ} : cell ∈ gridRectangleCells gridX gridY spanX spanY ↔
    (gridX ≤ cell.1 ∧ cell.1 < gridX + max 1 spanX) ∧ gridY ≤ cell.2 ∧ cell.2 < gridY + max 1 spanY := by
  rw [gridRectangleCells, Finset.mem_product, mem_spanRange, mem_spanRange]

theorem available_iff : available occupied spanX spanY origin = true ↔
    Disjoint (gridRectangleCells origin.1 origin.2 spanX spanY) occupied := by
  rw [available, decide_eq_true_eq, Finset.disjoint_iff_inter_eq_empty]

/-- The origins whose rectangle meets an occupied cell. -/
def unavailableOrigins (occupied : Finset Cell) (spanX spanY : ℤ) : Finset Cell :=
  occupied.biUnion fun cell =>
    spanRange (cell.1 - max 1 spanX + 1) spanX ×ˢ spanRange (cell.2 - max 1 spanY + 1) spanY

theorem mem_unavailableOrigins :
    origin ∈ unavailableOrigins occupied spanX spanY ↔ available occupied spanX spanY origin = false := by
  rw [← Bool.not_eq_true, available_iff, Finset.not_disjoint_iff, unavailableOrigins, Finset.mem_biUnion]
  refine exists_congr fun cell => ?_
  rw [Finset.mem_product, mem_spanRange, mem_spanRange, mem_gridRectangleCells]
  constructor
  · rintro ⟨mem, column, row⟩
    exact ⟨⟨by omega, by omega⟩, mem⟩
  · rintro ⟨⟨column, row⟩, mem⟩
    exact ⟨mem, by omega, by omega⟩

def InQuadrant (cell : Cell) : Prop := 0 ≤ cell.1 ∧ 0 ≤ cell.2

theorem exists_available (occupied : Finset Cell) (spanX spanY : ℤ) :
    ∃ origin, InQuadrant origin ∧ available occupied spanX spanY origin = true := by
  have injective : Function.Injective fun column : ℕ => ((column : ℤ), (0 : ℤ)) := by
    intro left right same
    exact Int.ofNat_inj.mp (Prod.mk.inj same).1
  have infinite := Set.infinite_range_of_injective injective
  obtain ⟨origin, ⟨column, rfl⟩, free⟩ :=
    infinite.exists_notMem_finset (unavailableOrigins occupied spanX spanY)
  refine ⟨((column : ℤ), 0), ⟨Int.natCast_nonneg column, le_refl 0⟩, ?_⟩
  rw [mem_unavailableOrigins, Bool.not_eq_false] at free
  exact free

/-! ### The search around a preferred origin -/

theorem mem_neighbours {next : Cell} : next ∈ neighbours cell ↔
    (next = (cell.1 - 1, cell.2) ∨ next = (cell.1 + 1, cell.2) ∨ next = (cell.1, cell.2 - 1) ∨
      next = (cell.1, cell.2 + 1)) ∧ InQuadrant next := by
  rw [neighbours, List.mem_filter, decide_eq_true_eq]
  simp only [List.mem_cons, List.not_mem_nil, or_false]
  rfl

def stepsFrom (preferred cell : Cell) : Nat :=
  (cell.1 - (clamp preferred).1).natAbs + (cell.2 - (clamp preferred).2).natAbs

theorem square_lt {near far scale : ℤ} (positive : 1 ≤ scale) (less : near.natAbs < far.natAbs) :
    (near * scale) ^ 2 < (far * scale) ^ 2 := by
  refine sq_lt_sq.mpr ?_
  rw [abs_mul, abs_mul]
  have absLess : |near| < |far| := by
    rw [Int.abs_eq_natAbs, Int.abs_eq_natAbs]
    exact_mod_cast less
  exact mul_lt_mul_of_pos_right absLess (abs_pos.mpr (by omega))

theorem searchKey_lt {preferred scale near far : Cell}
    (less : (near.2 = far.2 ∧
        (near.1 - (clamp preferred).1).natAbs < (far.1 - (clamp preferred).1).natAbs) ∨
      (near.1 = far.1 ∧
        (near.2 - (clamp preferred).2).natAbs < (far.2 - (clamp preferred).2).natAbs)) :
    searchKey preferred scale near < searchKey preferred scale far := by
  refine Prod.Lex.toLex_lt_toLex.mpr (.inl ?_)
  rcases less with ⟨same, less⟩ | ⟨same, less⟩
  · have distance := square_lt (le_max_left 1 scale.1) less
    dsimp only
    rw [same]
    omega
  · have distance := square_lt (le_max_left 1 scale.2) less
    dsimp only
    rw [same]
    omega

/-- Towards the preferred origin the distance goes down. -/
theorem grid_descent (preferred scale : Cell) :
    Descent (searchKey preferred scale) neighbours InQuadrant (clamp preferred) (stepsFrom preferred) where
  inside := fun _ _ _ isNext => (mem_neighbours.mp isNext).2
  nearer := by
    rintro ⟨x, y⟩ ⟨left, top⟩ ne
    obtain ⟨px, py, isClamp⟩ : ∃ px py, clamp preferred = (px, py) := ⟨_, _, rfl⟩
    have inside : 0 ≤ px ∧ 0 ≤ py := by
      cases isClamp
      exact ⟨le_max_left _ _, le_max_left _ _⟩
    simp only at left top
    have closer : ∀ near : Cell, InQuadrant near → (x, y) ∈ neighbours near →
        (near.2 = y ∧ (near.1 - px).natAbs < (x - px).natAbs) ∨
          (near.1 = x ∧ (near.2 - py).natAbs < (y - py).natAbs) →
        ∃ other, InQuadrant other ∧ (x, y) ∈ neighbours other ∧
          searchKey preferred scale other < searchKey preferred scale (x, y) ∧
          stepsFrom preferred other < stepsFrom preferred (x, y) := by
      intro near inQuadrant isNext less
      refine ⟨near, inQuadrant, isNext, searchKey_lt (by rw [isClamp]; exact less), ?_⟩
      rw [stepsFrom, stepsFrom, isClamp]
      rcases less with ⟨same, less⟩ | ⟨same, less⟩
      · simp only [same]
        omega
      · simp only [same]
        omega
    by_cases column : x = px
    · have row : y ≠ py := fun row => ne (by rw [isClamp, column, row])
      rcases lt_or_gt_of_ne row with above | below
      · refine closer (x, y + 1) ⟨left, by omega⟩ (mem_neighbours.mpr ⟨?_, left, top⟩) (.inr ⟨rfl, ?_⟩)
        · simp
        · dsimp only
          omega
      · refine closer (x, y - 1) ⟨left, by dsimp only; omega⟩ (mem_neighbours.mpr ⟨?_, left, top⟩)
          (.inr ⟨rfl, ?_⟩)
        · simp
        · dsimp only
          omega
    · rcases lt_or_gt_of_ne column with before | behind
      · refine closer (x + 1, y) ⟨by dsimp only; omega, top⟩ (mem_neighbours.mpr ⟨?_, left, top⟩)
          (.inl ⟨rfl, ?_⟩)
        · simp
        · dsimp only
          omega
      · refine closer (x - 1, y) ⟨by dsimp only; omega, top⟩ (mem_neighbours.mpr ⟨?_, left, top⟩)
          (.inl ⟨rfl, ?_⟩)
        · simp
        · dsimp only
          omega

theorem clamp_inQuadrant (preferred : Cell) : InQuadrant (clamp preferred) :=
  ⟨le_max_left _ _, le_max_left _ _⟩

/-- The search ends, within one turn for each place that is taken and one more, with the nearest place
that is free. -/
theorem findAvailableGridOrigin_nearest (occupied : Finset Cell) (spanX spanY : ℤ)
    (preferred distanceScale : Cell) :
    ∃ origin, (∀ more, findAvailableGridOrigin ((unavailableOrigins occupied spanX spanY).card + 1 + more)
        occupied spanX spanY (some preferred) distanceScale = some origin) ∧
      0 ≤ origin.1 ∧ 0 ≤ origin.2 ∧
      Disjoint (gridRectangleCells origin.1 origin.2 spanX spanY) occupied ∧
      ∀ other : Cell, 0 ≤ other.1 → 0 ≤ other.2 →
        Disjoint (gridRectangleCells other.1 other.2 spanX spanY) occupied →
          searchKey preferred distanceScale origin ≤ searchKey preferred distanceScale other := by
  have descent := grid_descent preferred distanceScale
  have start : Searching neighbours (available occupied spanX spanY) InQuadrant (clamp preferred)
      [clamp preferred] [clamp preferred] := .init (clamp_inQuadrant preferred)
  obtain ⟨origin, isFound⟩ := bestFirst_finds_start descent (clamp_inQuadrant preferred)
    (unavailableOrigins occupied spanX spanY) (fun _ _ isTaken => mem_unavailableOrigins.mpr isTaken)
    (exists_available occupied spanX spanY)
  obtain ⟨isFree, ⟨left, top⟩, least⟩ := bestFirst_least descent start isFound
  refine ⟨origin, bestFirst_mono isFound, left, top, available_iff.mp isFree, fun other left top free => ?_⟩
  exact least other ⟨left, top⟩ (available_iff.mpr free)

/-! ### The search row by row -/

def rowCandidate (index : Nat) : Cell :=
  ((index % defaultGridColumns : Nat), (index / defaultGridColumns : Nat))

theorem rowCandidate_injective : Function.Injective rowCandidate := by
  intro left right same
  have sameColumn := Int.ofNat_inj.mp (Prod.mk.inj same).1
  have sameRow := Int.ofNat_inj.mp (Prod.mk.inj same).2
  rw [← Nat.div_add_mod left defaultGridColumns, ← Nat.div_add_mod right defaultGridColumns, sameColumn,
    sameRow]

theorem rowSearch_finds {index fuel : Nat} (isSome : ∃ found, index ≤ found ∧ found < index + fuel ∧
      available occupied spanX spanY (rowCandidate found) = true) :
    ∃ origin, (∀ more, rowSearch occupied spanX spanY (fuel + more) index = some origin) ∧
      InQuadrant origin ∧ available occupied spanX spanY origin = true := by
  induction fuel generalizing index with
  | zero =>
    obtain ⟨found, le, less, -⟩ := isSome
    omega
  | succ fuel ih =>
    have unfolded : ∀ more, rowSearch occupied spanX spanY (fuel + 1 + more) index =
        if available occupied spanX spanY (rowCandidate index) then some (rowCandidate index)
        else rowSearch occupied spanX spanY (fuel + more) (index + 1) := by
      intro more
      rw [Nat.add_right_comm]
      rfl
    by_cases here : available occupied spanX spanY (rowCandidate index) = true
    · refine ⟨rowCandidate index, fun more => ?_, ⟨Int.natCast_nonneg _, Int.natCast_nonneg _⟩, here⟩
      rw [unfolded, if_pos here]
    · obtain ⟨found, le, less, isFree⟩ := isSome
      have ne : index ≠ found := fun same => here (same ▸ isFree)
      obtain ⟨origin, ran, spec⟩ := @ih (index + 1) ⟨found, by omega, by omega, isFree⟩
      refine ⟨origin, fun more => ?_, spec⟩
      rw [unfolded, if_neg here, ran]

/-- Without a preferred origin a place is found too. -/
theorem findAvailableGridOrigin_row (occupied : Finset Cell) (spanX spanY : ℤ) (distanceScale : Cell) :
    ∃ origin, (∀ more, findAvailableGridOrigin ((unavailableOrigins occupied spanX spanY).card + 1 + more)
        occupied spanX spanY none distanceScale = some origin) ∧
      0 ≤ origin.1 ∧ 0 ≤ origin.2 ∧
      Disjoint (gridRectangleCells origin.1 origin.2 spanX spanY) occupied := by
  -- there are more candidates than places that are taken
  obtain ⟨_, isCandidate, free⟩ := Finset.exists_mem_notMem_of_card_lt_card
    (s := unavailableOrigins occupied spanX spanY)
    (t := (Finset.range ((unavailableOrigins occupied spanX spanY).card + 1)).image rowCandidate)
    (by rw [Finset.card_image_of_injective _ rowCandidate_injective, Finset.card_range]; omega)
  obtain ⟨found, mem, rfl⟩ := Finset.mem_image.mp isCandidate
  rw [mem_unavailableOrigins, Bool.not_eq_false] at free
  have less := Finset.mem_range.mp mem
  obtain ⟨origin, ran, ⟨left, top⟩, isFree⟩ :=
    @rowSearch_finds occupied spanX spanY 0 ((unavailableOrigins occupied spanX spanY).card + 1)
      ⟨found, Nat.zero_le _, by omega, free⟩
  exact ⟨origin, ran, left, top, available_iff.mp isFree⟩

theorem findAvailableGridOrigin_preferred {preferred : Cell} (inside : InQuadrant preferred)
    (free : available occupied spanX spanY preferred = true) (distanceScale : Cell) (fuel : Nat) :
    findAvailableGridOrigin (fuel + 1) occupied spanX spanY (some preferred) distanceScale =
      some preferred := by
  have isClamp : clamp preferred = preferred :=
    Prod.ext (max_eq_right inside.1) (max_eq_right inside.2)
  change bestFirst _ _ _ _ [clamp preferred] [clamp preferred] = _
  rw [isClamp]
  exact if_pos free

end

end AgentPark.Layout
