import Mathlib.Data.Rat.Floor
import AgentPark.Layout.GridSearch
import AgentPark.Lib.Dict
import AgentPark.Lib.Outcome

/-!
# Repairing the positions of nodes

Nodes that have no place on the grid get one: nodes without any position row by row, nodes with a position
in pixels near that position.

Positions in pixels are exact numbers here, and the other fields of a configuration are left out.
-/

namespace AgentPark.Layout

open Lib

/-! ### Sizes and positions -/

def defaultNodeWidth : Nat := 230

def defaultNodeHeight : Nat := 250

/-- What `read_board_layout_settings` returns. -/
structure BoardLayout where
  gridCellWidth : Nat
  gridCellHeight : Nat
  nodeWidth : Nat
  nodeHeight : Nat
  gridCellWidth_valid : 230 ≤ gridCellWidth ∧ gridCellWidth ≤ 2000
  gridCellHeight_valid : 250 ≤ gridCellHeight ∧ gridCellHeight ≤ 2000
  nodeWidth_valid : 50 ≤ nodeWidth ∧ nodeWidth ≤ 720
  nodeHeight_valid : 50 ≤ nodeHeight ∧ nodeHeight ≤ 760

/-- A width or a height, between `MIN_NODE_RENDER_SIZE` and `MAX_GRID_CELL_SIZE`. -/
abbrev RenderSize := { size : Nat // 1 ≤ size ∧ size ≤ 2000 }

/-- What `normalize_node_grid_ui` returns. -/
structure GridUi where
  gridX : Nat
  gridY : Nat
  width : Option RenderSize
  height : Option RenderSize
deriving DecidableEq

/-- The `ui` of a node configuration: none, a position in pixels, a place on the grid, or something
else. -/
inductive NodeUi where
  | missing
  | legacy (x y : ℚ) (width height : Option RenderSize)
  | grid (ui : GridUi)
  | malformed
deriving DecidableEq

/-- The configurations of a graph by node, in the order of the listing. -/
abbrev NodeConfigs := List (String × NodeUi)

/-- `max(1, math.ceil(size / cell))`. -/
def cellSpan (size cell : Nat) : ℤ := max 1 ((size + cell - 1) / cell : ℕ)

def sizeOr (size : Option RenderSize) (default : Nat) : Nat := (size.map Subtype.val).getD default

/-- `node_grid_span` -/
def nodeGridSpan (ui : GridUi) (cellWidth cellHeight defaultWidth defaultHeight : Nat) : ℤ × ℤ :=
  (cellSpan (sizeOr ui.width defaultWidth) cellWidth, cellSpan (sizeOr ui.height defaultHeight) cellHeight)

/-- The cells of a node on the grid, as `occupied_grid_cells` takes them from its configuration. -/
def nodeCells (settings : BoardLayout) (ui : GridUi) : Finset Cell :=
  let span := nodeGridSpan ui settings.gridCellWidth settings.gridCellHeight settings.nodeWidth
    settings.nodeHeight
  gridRectangleCells ui.gridX ui.gridY span.1 span.2

/-- `max(0, math.floor(position / cell + 0.5))`. -/
def legacyCell (position : ℚ) (cell : Nat) : Nat := (position / cell + 1 / 2).floor.toNat

/-- `_normalize_legacy_absolute_ui`. -/
def normalizeLegacyAbsoluteUi (settings : BoardLayout) (x y : ℚ) (width height : Option RenderSize) :
    GridUi where
  gridX := legacyCell x settings.gridCellWidth
  gridY := legacyCell y settings.gridCellHeight
  width := width
  height := height

/-! ### The repair -/

/-- A node without a place on the grid, with the place that is asked for. -/
abbrev MissingNode := String × Option GridUi

/-- The loop over the listing: the cells that are taken and the nodes without a place. -/
def readNodes (settings : BoardLayout) (excludeNodeIds : List String) (configs : NodeConfigs) :
    Except String (Finset Cell × List MissingNode) :=
  configs.foldlM (fun (occupied, missing) (nodeId, ui) =>
    if nodeId ∈ excludeNodeIds then .ok (occupied, missing)
    else
      match ui with
      | .missing => .ok (occupied, missing ++ [(nodeId, none)])
      | .legacy x y width height =>
        .ok (occupied, missing ++ [(nodeId, some (normalizeLegacyAbsoluteUi settings x y width height))])
      | .grid ui => .ok (occupied ∪ nodeCells settings ui, missing)
      | .malformed => .error ("invalid node grid position: " ++ nodeId)) (∅, [])

/-- The span that is kept free for a node. -/
def reservedSpan (settings : BoardLayout) (requested : Option GridUi) : ℤ × ℤ :=
  match requested with
  | some ui =>
    nodeGridSpan ui settings.gridCellWidth settings.gridCellHeight defaultNodeWidth defaultNodeHeight
  | none => (cellSpan settings.nodeWidth settings.gridCellWidth,
      cellSpan settings.nodeHeight settings.gridCellHeight)

/-- The place that is found for a node.  The loops of the search end within the bound. -/
def findPlace (settings : BoardLayout) (occupied : Finset Cell) (requested : Option GridUi) : Option Cell :=
  let span := reservedSpan settings requested
  findAvailableGridOrigin ((unavailableOrigins occupied span.1 span.2).card + 1) occupied span.1 span.2
    (requested.map fun ui => (ui.gridX, ui.gridY)) (settings.gridCellWidth, settings.gridCellHeight)

/-- A size of the settings, which `normalize_node_grid_ui` accepts. -/
def settingsSize (size : Nat) (valid : 50 ≤ size ∧ size ≤ 760) : RenderSize := ⟨size, by omega, by omega⟩

/-- The `ui` that is written for a node. -/
def repairedUi (settings : BoardLayout) (requested : Option GridUi) (origin : Cell) : GridUi where
  gridX := origin.1.toNat
  gridY := origin.2.toNat
  width := some (((requested.bind GridUi.width)).getD
    (settingsSize settings.nodeWidth ⟨settings.nodeWidth_valid.1, settings.nodeWidth_valid.2.trans (by decide)⟩))
  height := some (((requested.bind GridUi.height)).getD
    (settingsSize settings.nodeHeight settings.nodeHeight_valid))

/-- What the loop over the nodes without a place changes. -/
structure RepairState where
  occupied : Finset Cell
  configs : NodeConfigs
  repaired : List String

def repairNode (settings : BoardLayout) (state : RepairState) (node : MissingNode) : Option RepairState := do
  let origin ← findPlace settings state.occupied node.2
  let span := reservedSpan settings node.2
  return {
    occupied := state.occupied ∪ gridRectangleCells origin.1 origin.2 span.1 span.2
    configs := dictSet state.configs node.1 (.grid (repairedUi settings node.2 origin))
    repaired := state.repaired ++ [node.1] }

def repairNodes (settings : BoardLayout) : List MissingNode → RepairState → Option RepairState
  | [], state => some state
  | node :: missing, state => do
    let state ← repairNode settings state node
    repairNodes settings missing state

/-- `repair_missing_node_grid_positions`: the configurations behind it and the nodes it has repaired;
`none` inside stands for a search that does not end. -/
def repairMissingNodeGridPositions (settings : BoardLayout) (excludeNodeIds : List String)
    (configs : NodeConfigs) : Except String (Option (NodeConfigs × List String)) := do
  let (occupied, missing) ← readNodes settings excludeNodeIds configs
  return (repairNodes settings missing { occupied, configs, repaired := [] }).map
    fun state => (state.configs, state.repaired)

/-! ### What should hold -/

/-- Repaired nodes share no cell with another node, and nodes on the grid stay where they are. -/
def KeepsApart (settings : BoardLayout) (excludeNodeIds : List String) (configs : NodeConfigs) : Prop :=
  match repairMissingNodeGridPositions settings excludeNodeIds configs with
  | .error _ => True
  | .ok none => False
  | .ok (some (after, repaired)) =>
    (∀ nodeId otherId ui otherUi, nodeId ≠ otherId → nodeId ∉ excludeNodeIds → otherId ∉ excludeNodeIds →
      after.lookup nodeId = some (.grid ui) → after.lookup otherId = some (.grid otherUi) →
        nodeId ∈ repaired ∨ otherId ∈ repaired →
          Disjoint (nodeCells settings ui) (nodeCells settings otherUi)) ∧
    ∀ nodeId ui, configs.lookup nodeId = some (.grid ui) → after.lookup nodeId = some (.grid ui)

/-- A node that is to have the size of the settings fits into one cell with it. -/
def FitsCell (settings : BoardLayout) (width height : Option RenderSize) : Prop :=
  (width = none → settings.nodeWidth ≤ settings.gridCellWidth) ∧
    (height = none → settings.nodeHeight ≤ settings.gridCellHeight)

/-- All nodes with a position in pixels have a size or fit into a cell. -/
def LegacyFits (settings : BoardLayout) (excludeNodeIds : List String) (configs : NodeConfigs) : Prop :=
  ∀ nodeId x y width height, (nodeId, .legacy x y width height) ∈ configs → nodeId ∉ excludeNodeIds →
    FitsCell settings width height

/-! ### One node -/

section
variable {settings : BoardLayout} {excludeNodeIds : List String} {configs : NodeConfigs}
variable {occupied : Finset Cell} {requested : Option GridUi}

theorem findPlace_spec (settings : BoardLayout) (occupied : Finset Cell) (requested : Option GridUi) :
    ∃ origin, findPlace settings occupied requested = some origin ∧ 0 ≤ origin.1 ∧ 0 ≤ origin.2 ∧
      Disjoint (gridRectangleCells origin.1 origin.2 (reservedSpan settings requested).1
        (reservedSpan settings requested).2) occupied := by
  cases requested with
  | none =>
    obtain ⟨origin, ran, left, top, free⟩ := findAvailableGridOrigin_row occupied
      (reservedSpan settings none).1 (reservedSpan settings none).2
      (settings.gridCellWidth, settings.gridCellHeight)
    exact ⟨origin, ran 0, left, top, free⟩
  | some ui =>
    obtain ⟨origin, ran, left, top, free, -⟩ := findAvailableGridOrigin_nearest occupied
      (reservedSpan settings (some ui)).1 (reservedSpan settings (some ui)).2 (ui.gridX, ui.gridY)
      (settings.gridCellWidth, settings.gridCellHeight)
    exact ⟨origin, ran 0, left, top, free⟩

theorem cellSpan_of_le {size cell : Nat} (positive : 0 < size) (fits : size ≤ cell) : cellSpan size cell = 1 := by
  have one : (size + cell - 1) / cell = 1 := Nat.div_eq_of_lt_le (by omega) (by omega)
  rw [cellSpan, one]
  rfl

theorem cellSpan_of_lt {size cell : Nat} (positive : 0 < cell) (exceeds : cell < size) : 2 ≤ cellSpan size cell := by
  have two : 2 ≤ (size + cell - 1) / cell := (Nat.le_div_iff_mul_le positive).mpr (by omega)
  rw [cellSpan]
  omega

/-- What is kept free for a node is what it takes. -/
def KeepsSpan (settings : BoardLayout) (requested : Option GridUi) : Prop :=
  ∀ ui, requested = some ui → FitsCell settings ui.width ui.height

theorem reservedSpan_eq (fits : KeepsSpan settings requested) (origin : Cell) :
    reservedSpan settings requested = nodeGridSpan (repairedUi settings requested origin)
      settings.gridCellWidth settings.gridCellHeight settings.nodeWidth settings.nodeHeight := by
  have cellWidth := settings.gridCellWidth_valid
  have cellHeight := settings.gridCellHeight_valid
  have nodeWidth := settings.nodeWidth_valid
  have nodeHeight := settings.nodeHeight_valid
  cases requested with
  | none => rfl
  | some ui =>
    obtain ⟨fitsWidth, fitsHeight⟩ := fits ui rfl
    refine Prod.ext ?_ ?_
    · cases isWidth : ui.width with
      | none =>
        have reserved : (reservedSpan settings (some ui)).1 =
            cellSpan defaultNodeWidth settings.gridCellWidth := by
          simp [reservedSpan, nodeGridSpan, sizeOr, isWidth]
        have taken : (nodeGridSpan (repairedUi settings (some ui) origin) settings.gridCellWidth
            settings.gridCellHeight settings.nodeWidth settings.nodeHeight).1 =
              cellSpan settings.nodeWidth settings.gridCellWidth := by
          simp [nodeGridSpan, repairedUi, sizeOr, isWidth, settingsSize]
        have reservedOne : cellSpan defaultNodeWidth settings.gridCellWidth = 1 :=
          cellSpan_of_le (by decide) cellWidth.1
        rw [reserved, taken, reservedOne, cellSpan_of_le (by omega) (fitsWidth isWidth)]
      | some width => simp [reservedSpan, nodeGridSpan, repairedUi, sizeOr, isWidth]
    · cases isHeight : ui.height with
      | none =>
        have reserved : (reservedSpan settings (some ui)).2 =
            cellSpan defaultNodeHeight settings.gridCellHeight := by
          simp [reservedSpan, nodeGridSpan, sizeOr, isHeight]
        have taken : (nodeGridSpan (repairedUi settings (some ui) origin) settings.gridCellWidth
            settings.gridCellHeight settings.nodeWidth settings.nodeHeight).2 =
              cellSpan settings.nodeHeight settings.gridCellHeight := by
          simp [nodeGridSpan, repairedUi, sizeOr, isHeight, settingsSize]
        have reservedOne : cellSpan defaultNodeHeight settings.gridCellHeight = 1 :=
          cellSpan_of_le (by decide) cellHeight.1
        rw [reserved, taken, reservedOne, cellSpan_of_le (by omega) (fitsHeight isHeight)]
      | some height => simp [reservedSpan, nodeGridSpan, repairedUi, sizeOr, isHeight]

theorem nodeCells_repairedUi {origin : Cell} (left : 0 ≤ origin.1) (top : 0 ≤ origin.2)
    (fits : KeepsSpan settings requested) : nodeCells settings (repairedUi settings requested origin) =
      gridRectangleCells origin.1 origin.2 (reservedSpan settings requested).1
        (reservedSpan settings requested).2 := by
  have isX : ((repairedUi settings requested origin).gridX : ℤ) = origin.1 := Int.toNat_of_nonneg left
  have isY : ((repairedUi settings requested origin).gridY : ℤ) = origin.2 := Int.toNat_of_nonneg top
  rw [nodeCells, isX, isY, reservedSpan_eq fits origin]

/-! ### The loop -/

/-- What holds between two turns; `pending` are the nodes that still have no place. -/
structure Repaired (settings : BoardLayout) (excludeNodeIds : List String) (configs : NodeConfigs)
    (state : RepairState) (pending : List MissingNode) : Prop where
  covered : ∀ nodeId ui, nodeId ∉ excludeNodeIds → state.configs.lookup nodeId = some (.grid ui) →
    nodeCells settings ui ⊆ state.occupied
  apart : ∀ nodeId otherId ui otherUi, nodeId ≠ otherId → nodeId ∉ excludeNodeIds →
    otherId ∉ excludeNodeIds → state.configs.lookup nodeId = some (.grid ui) →
      state.configs.lookup otherId = some (.grid otherUi) → nodeId ∈ state.repaired →
        Disjoint (nodeCells settings ui) (nodeCells settings otherUi)
  kept : ∀ nodeId ui, configs.lookup nodeId = some (.grid ui) → state.configs.lookup nodeId = some (.grid ui)
  unplaced : ∀ node ∈ pending, node.1 ∉ excludeNodeIds ∧ ∀ ui, configs.lookup node.1 ≠ some (.grid ui)
  fresh : ∀ node ∈ pending, ∀ ui, state.configs.lookup node.1 ≠ some (.grid ui)
  nodup : (pending.map Prod.fst).Nodup
  fits : ∀ node ∈ pending, KeepsSpan settings node.2

/-- One round of the loop keeps `Repaired`. -/
theorem repairNode_repaired {state : RepairState} {node : MissingNode} {pending : List MissingNode}
    (holds : Repaired settings excludeNodeIds configs state (node :: pending)) :
    ∃ after, repairNode settings state node = some after ∧
      Repaired settings excludeNodeIds configs after pending := by
  obtain ⟨origin, found, left, top, free⟩ := findPlace_spec settings state.occupied node.2
  obtain ⟨fits, laterFit⟩ := List.forall_mem_cons.mp holds.fits
  obtain ⟨⟨included, notGrid⟩, laterUnplaced⟩ := List.forall_mem_cons.mp holds.unplaced
  obtain ⟨-, laterFresh⟩ := List.forall_mem_cons.mp holds.fresh
  obtain ⟨new, laterNodup⟩ := List.nodup_cons.mp holds.nodup
  rw [← nodeCells_repairedUi left top fits] at free
  refine ⟨_, by rw [repairNode, found]; rfl, ?_⟩
  have lookups : ∀ nodeId, (dictSet state.configs node.1 (.grid (repairedUi settings node.2 origin))).lookup
      nodeId = if nodeId = node.1 then some (.grid (repairedUi settings node.2 origin))
        else state.configs.lookup nodeId := fun nodeId => lookup_dictSet _ _ _ _
  constructor
  · intro nodeId ui isIncluded isGrid
    rw [← nodeCells_repairedUi left top fits]
    rw [lookups] at isGrid
    split_ifs at isGrid with here
    · cases isGrid
      exact Finset.subset_union_right
    · exact (holds.covered nodeId ui isIncluded isGrid).trans Finset.subset_union_left
  · intro nodeId otherId ui otherUi ne isIncluded otherIncluded isGrid otherGrid isRepaired
    rw [lookups] at isGrid otherGrid
    split_ifs at isGrid otherGrid with here there there
    · exact absurd (here.trans there.symm) ne
    · cases isGrid
      exact Finset.disjoint_of_subset_right (holds.covered otherId otherUi otherIncluded otherGrid) free
    · cases otherGrid
      exact (Finset.disjoint_of_subset_right (holds.covered nodeId ui isIncluded isGrid) free).symm
    · rcases List.mem_append.mp isRepaired with old | isNew
      · exact holds.apart nodeId otherId ui otherUi ne isIncluded otherIncluded isGrid otherGrid old
      · exact absurd (List.mem_singleton.mp isNew) here
  · intro nodeId ui isGrid
    have other : nodeId ≠ node.1 := by
      rintro rfl
      exact notGrid ui isGrid
    rw [lookups, if_neg other]
    exact holds.kept nodeId ui isGrid
  · exact laterUnplaced
  · intro later mem ui
    have other : later.1 ≠ node.1 := by
      intro same
      exact new (same ▸ List.mem_map_of_mem mem)
    rw [lookups, if_neg other]
    exact laterFresh later mem ui
  · exact laterNodup
  · exact laterFit

theorem repairNodes_repaired {state : RepairState} {pending : List MissingNode}
    (holds : Repaired settings excludeNodeIds configs state pending) :
    ∃ after, repairNodes settings pending state = some after ∧
      Repaired settings excludeNodeIds configs after [] := by
  induction pending generalizing state with
  | nil => exact ⟨state, rfl, holds⟩
  | cons node pending ih =>
    obtain ⟨between, step, holds⟩ := repairNode_repaired holds
    obtain ⟨after, ran, holds⟩ := ih holds
    refine ⟨after, ?_, holds⟩
    rw [repairNodes, step]
    exact ran

/-! ### The listing -/

/-- A node without a place, as the listing finds it. -/
def missingNode (settings : BoardLayout) (excludeNodeIds : List String) (entry : String × NodeUi) :
    Option MissingNode :=
  if entry.1 ∈ excludeNodeIds then none
  else
    match entry.2 with
    | .missing => some (entry.1, none)
    | .legacy x y width height => some (entry.1, some (normalizeLegacyAbsoluteUi settings x y width height))
    | .grid _ | .malformed => none

theorem readNodes_spec {read : Finset Cell × List MissingNode}
    (ran : readNodes settings excludeNodeIds configs = .ok read) :
    (∀ entry ∈ configs, ∀ ui, entry.1 ∉ excludeNodeIds → entry.2 = .grid ui →
      nodeCells settings ui ⊆ read.1) ∧
    read.2 = configs.filterMap (missingNode settings excludeNodeIds) := by
  rw [readNodes] at ran
  have general : ∀ (configs : NodeConfigs) start, configs.foldlM (fun (occupied, missing) (nodeId, ui) =>
      if nodeId ∈ excludeNodeIds then .ok (occupied, missing)
      else
        match ui with
        | .missing => .ok (occupied, missing ++ [(nodeId, none)])
        | .legacy x y width height =>
          .ok (occupied, missing ++ [(nodeId, some (normalizeLegacyAbsoluteUi settings x y width height))])
        | .grid ui => .ok (occupied ∪ nodeCells settings ui, missing)
        | .malformed => .error ("invalid node grid position: " ++ nodeId)) start =
          (.ok read : Except String (Finset Cell × List MissingNode)) →
      start.1 ⊆ read.1 ∧
      (∀ entry ∈ configs, ∀ ui, entry.1 ∉ excludeNodeIds → entry.2 = .grid ui →
        nodeCells settings ui ⊆ read.1) ∧
      read.2 = start.2 ++ configs.filterMap (missingNode settings excludeNodeIds) := by
    intro configs
    induction configs with
    | nil =>
      rintro start ⟨⟩
      exact ⟨Finset.Subset.refl _, fun _ mem => (by cases mem), (List.append_nil _).symm⟩
    | cons entry configs ih =>
      rintro ⟨occupied, missing⟩ ran
      obtain ⟨nodeId, ui⟩ := entry
      obtain ⟨next, step, later⟩ := bind_eq_ok.mp ran
      obtain ⟨grows, covered, isMissing⟩ := ih next later
      rw [List.filterMap_cons, missingNode]
      simp only at step ⊢
      split_ifs at step ⊢ with excluded
      · cases step
        refine ⟨grows, List.forall_mem_cons.mpr ⟨fun ui included => absurd excluded included, covered⟩, ?_⟩
        exact isMissing
      · cases ui with
        | missing | legacy =>
          cases step
          refine ⟨grows, List.forall_mem_cons.mpr ⟨nofun, covered⟩, ?_⟩
          rw [isMissing, List.append_assoc]
          rfl
        | grid ui =>
          cases step
          refine ⟨Finset.subset_union_left.trans grows, List.forall_mem_cons.mpr ⟨?_, covered⟩, isMissing⟩
          rintro _ - ⟨⟩
          exact Finset.subset_union_right.trans grows
        | malformed => cases step
  obtain ⟨-, covered, isMissing⟩ := general configs (∅, []) ran
  exact ⟨covered, isMissing⟩

theorem mem_missing {node : MissingNode} (mem : node ∈ configs.filterMap (missingNode settings excludeNodeIds)) :
    ∃ ui, (node.1, ui) ∈ configs ∧ node.1 ∉ excludeNodeIds ∧ (∀ grid, ui ≠ .grid grid) ∧
      ∀ requested, node.2 = some requested → ∃ x y,
        ui = .legacy x y requested.width requested.height := by
  obtain ⟨⟨nodeId, ui⟩, inConfigs, isMissing⟩ := List.mem_filterMap.mp mem
  rw [missingNode] at isMissing
  split_ifs at isMissing with excluded
  cases ui with
  | missing =>
    cases isMissing
    exact ⟨.missing, inConfigs, excluded, nofun, nofun⟩
  | legacy x y width height =>
    cases isMissing
    refine ⟨.legacy x y width height, inConfigs, excluded, nofun, ?_⟩
    rintro _ ⟨⟩
    exact ⟨x, y, rfl⟩
  | grid ui => cases isMissing
  | malformed => cases isMissing

theorem keepsApart_of_legacyFits (nodup : (configs.map Prod.fst).Nodup)
    (fits : LegacyFits settings excludeNodeIds configs) : KeepsApart settings excludeNodeIds configs := by
  cases ran : readNodes settings excludeNodeIds configs with
  | error error =>
    have refused : repairMissingNodeGridPositions settings excludeNodeIds configs = .error error := by
      rw [repairMissingNodeGridPositions, ran]
      rfl
    rw [KeepsApart, refused]
    trivial
  | ok read =>
    obtain ⟨covered, isMissing⟩ := readNodes_spec ran
    have start : Repaired settings excludeNodeIds configs
        { occupied := read.1, configs, repaired := [] } read.2 := by
      have unplaced : ∀ node ∈ read.2, node.1 ∉ excludeNodeIds ∧ ∀ ui, configs.lookup node.1 ≠ some (.grid ui) := by
        intro node mem
        rw [isMissing] at mem
        obtain ⟨ui, inConfigs, included, notGrid, -⟩ := mem_missing mem
        refine ⟨included, fun grid isGrid => ?_⟩
        rw [lookup_of_mem nodup inConfigs] at isGrid
        exact notGrid grid (Option.some.inj isGrid)
      refine ⟨?_, fun _ _ _ _ _ _ _ _ _ none => (by cases none), fun _ _ found => found, unplaced,
        fun node mem => (unplaced node mem).2, ?_, ?_⟩
      · intro nodeId ui included isGrid
        exact covered _ (mem_of_lookup isGrid) ui included rfl
      · rw [isMissing]
        refine (keys_filterMap_sublist ?_ configs).nodup nodup
        rintro ⟨nodeId, ui⟩ node isNode
        rw [missingNode] at isNode
        split_ifs at isNode
        cases ui <;> cases isNode <;> rfl
      · intro node mem requested isRequested
        rw [isMissing] at mem
        obtain ⟨ui, inConfigs, included, -, isLegacy⟩ := mem_missing mem
        obtain ⟨x, y, rfl⟩ := isLegacy requested isRequested
        exact fits node.1 x y _ _ inConfigs included
    obtain ⟨after, ranNodes, holds⟩ := repairNodes_repaired start
    have result : repairMissingNodeGridPositions settings excludeNodeIds configs =
        .ok (some (after.configs, after.repaired)) := by
      rw [repairMissingNodeGridPositions, ran]
      change Except.ok ((repairNodes settings read.2 _).map _) = _
      rw [ranNodes]
      rfl
    rw [KeepsApart, result]
    refine ⟨fun nodeId otherId ui otherUi ne included otherIncluded isGrid otherGrid either => ?_, holds.kept⟩
    rcases either with isRepaired | otherRepaired
    · exact holds.apart nodeId otherId ui otherUi ne included otherIncluded isGrid otherGrid isRepaired
    · exact (holds.apart otherId nodeId otherUi ui ne.symm otherIncluded included otherGrid isGrid
        otherRepaired).symm

/-! ### Settings whose nodes do not fit into a cell -/

/-- What is written for a node without a size that gets the place it asks for. -/
def sizedUi (settings : BoardLayout) (gridX gridY : Nat) : GridUi :=
  repairedUi settings (some ⟨gridX, gridY, none, none⟩) (gridX, gridY)

theorem reservedSpan_unsized (settings : BoardLayout) (gridX gridY : Nat) :
    reservedSpan settings (some ⟨gridX, gridY, none, none⟩) = (1, 1) :=
  Prod.ext (@cellSpan_of_le defaultNodeWidth _ (by decide) settings.gridCellWidth_valid.1)
    (@cellSpan_of_le defaultNodeHeight _ (by decide) settings.gridCellHeight_valid.1)

theorem repairNode_unsized {state : RepairState} {nodeId : String} {gridX gridY : Nat}
    (free : ((gridX : ℤ), (gridY : ℤ)) ∉ state.occupied) :
    repairNode settings state (nodeId, some ⟨gridX, gridY, none, none⟩) = some {
      occupied := state.occupied ∪ gridRectangleCells gridX gridY 1 1
      configs := dictSet state.configs nodeId (.grid (sizedUi settings gridX gridY))
      repaired := state.repaired ++ [nodeId] } := by
  have found : findPlace settings state.occupied (some ⟨gridX, gridY, none, none⟩) =
      some ((gridX : ℤ), (gridY : ℤ)) := by
    rw [findPlace, reservedSpan_unsized]
    refine findAvailableGridOrigin_preferred ⟨Int.natCast_nonneg _, Int.natCast_nonneg _⟩ ?_ _ _
    rw [available_iff, Finset.disjoint_left]
    rintro ⟨x, y⟩ mem taken
    rw [mem_gridRectangleCells] at mem
    dsimp only at mem
    obtain ⟨rfl, rfl⟩ : x = gridX ∧ y = gridY := by omega
    exact free taken
  rw [repairNode, found, reservedSpan_unsized]
  rfl

theorem legacyCell_mul (count : Nat) {cell : Nat} (positive : 0 < cell) :
    legacyCell (count * cell) cell = count := by
  have ne : (cell : ℚ) ≠ 0 := by exact_mod_cast positive.ne'
  have isFloor : ⌊(count : ℚ) + 1 / 2⌋ = count := by
    rw [Int.floor_eq_iff]
    constructor
    · push_cast
      linarith
    · push_cast
      linarith
  have isCount : (count * cell : ℚ) / cell = count := mul_div_cancel_right₀ _ ne
  rw [legacyCell, isCount]
  change ⌊(count : ℚ) + 1 / 2⌋.toNat = count
  rw [isFloor]
  exact Int.toNat_natCast count

/-- Two nodes without a size, one at the corner of the grid and one so many cells beside and below it. -/
def neighbouringNodes (settings : BoardLayout) (right below : Nat) : NodeConfigs :=
  [("a", .legacy 0 0 none none),
    ("b", .legacy (right * settings.gridCellWidth) (below * settings.gridCellHeight) none none)]

theorem neighbouringNodes_apart {right below : Nat} (ne : right ≠ 0 ∨ below ≠ 0)
    (apart : KeepsApart settings [] (neighbouringNodes settings right below)) :
    Disjoint (nodeCells settings (sizedUi settings 0 0)) (nodeCells settings (sizedUi settings right below)) := by
  have cellWidth := settings.gridCellWidth_valid
  have cellHeight := settings.gridCellHeight_valid
  have corner : normalizeLegacyAbsoluteUi settings 0 0 none none = ⟨0, 0, none, none⟩ := by
    have column := legacyCell_mul 0 (show 0 < settings.gridCellWidth by omega)
    have row := legacyCell_mul 0 (show 0 < settings.gridCellHeight by omega)
    rw [Nat.cast_zero, zero_mul] at column row
    rw [normalizeLegacyAbsoluteUi, column, row]
  have beside : normalizeLegacyAbsoluteUi settings (right * settings.gridCellWidth)
      (below * settings.gridCellHeight) none none = ⟨right, below, none, none⟩ := by
    rw [normalizeLegacyAbsoluteUi, legacyCell_mul right (by omega), legacyCell_mul below (by omega)]
  have isRead : readNodes settings [] (neighbouringNodes settings right below) =
      .ok (∅, [("a", some ⟨0, 0, none, none⟩), ("b", some ⟨right, below, none, none⟩)]) := by
    rw [← corner, ← beside]
    rfl
  have cornerStep := @repairNode_unsized settings
    { occupied := ∅, configs := neighbouringNodes settings right below, repaired := [] } "a" 0 0
    (Finset.notMem_empty _)
  have besideStep := @repairNode_unsized settings
    { occupied := ∅ ∪ gridRectangleCells ((0 : ℕ) : ℤ) ((0 : ℕ) : ℤ) 1 1
      configs := [("a", .grid (sizedUi settings 0 0)),
        ("b", .legacy (right * settings.gridCellWidth) (below * settings.gridCellHeight) none none)]
      repaired := ["a"] } "b" right below (by
        intro taken
        rw [Finset.empty_union, mem_gridRectangleCells] at taken
        dsimp only at taken
        omega)
  have result : repairMissingNodeGridPositions settings [] (neighbouringNodes settings right below) =
      .ok (some ([("a", .grid (sizedUi settings 0 0)), ("b", .grid (sizedUi settings right below))],
        ["a", "b"])) := by
    rw [repairMissingNodeGridPositions, isRead]
    change Except.ok ((repairNodes settings [("a", some ⟨0, 0, none, none⟩),
      ("b", some ⟨right, below, none, none⟩)] _).map _) = _
    rw [repairNodes, cornerStep]
    change Except.ok ((repairNodes settings [("b", some ⟨right, below, none, none⟩)] _).map _) = _
    rw [repairNodes]
    exact congrArg (fun found => Except.ok (Option.map _ (found >>= repairNodes settings []))) besideStep
  rw [KeepsApart, result] at apart
  exact apart.1 "a" "b" _ _ (by decide) (by decide) (by decide) rfl rfl (.inl (by decide))

theorem mem_nodeCells_sizedUi {gridX gridY x y : Nat} :
    ((x : ℤ), (y : ℤ)) ∈ nodeCells settings (sizedUi settings gridX gridY) ↔
      (gridX ≤ x ∧ (x : ℤ) < gridX + cellSpan settings.nodeWidth settings.gridCellWidth) ∧
        gridY ≤ y ∧ (y : ℤ) < gridY + cellSpan settings.nodeHeight settings.gridCellHeight := by
  have positive : ∀ size cell, 1 ≤ cellSpan size cell := fun _ _ => le_max_left _ _
  have isCells : nodeCells settings (sizedUi settings gridX gridY) = gridRectangleCells gridX gridY
      (cellSpan settings.nodeWidth settings.gridCellWidth)
      (cellSpan settings.nodeHeight settings.gridCellHeight) := rfl
  rw [isCells, mem_gridRectangleCells, max_eq_right (positive _ _), max_eq_right (positive _ _)]
  dsimp only
  omega

theorem neighbouringNodes_wide (exceeds : settings.gridCellWidth < settings.nodeWidth) :
    ¬ KeepsApart settings [] (neighbouringNodes settings 1 0) := by
  intro apart
  have cellWidth := settings.gridCellWidth_valid
  have span := cellSpan_of_lt (show 0 < settings.gridCellWidth by omega) exceeds
  have rows : 1 ≤ cellSpan settings.nodeHeight settings.gridCellHeight := le_max_left _ _
  have first : (((1 : ℕ) : ℤ), ((0 : ℕ) : ℤ)) ∈ nodeCells settings (sizedUi settings 0 0) :=
    mem_nodeCells_sizedUi.mpr (by omega)
  have second : (((1 : ℕ) : ℤ), ((0 : ℕ) : ℤ)) ∈ nodeCells settings (sizedUi settings 1 0) :=
    mem_nodeCells_sizedUi.mpr (by omega)
  exact Finset.disjoint_left.mp (neighbouringNodes_apart (.inl one_ne_zero) apart) first second

theorem neighbouringNodes_high (exceeds : settings.gridCellHeight < settings.nodeHeight) :
    ¬ KeepsApart settings [] (neighbouringNodes settings 0 1) := by
  intro apart
  have cellHeight := settings.gridCellHeight_valid
  have span := cellSpan_of_lt (show 0 < settings.gridCellHeight by omega) exceeds
  have columns : 1 ≤ cellSpan settings.nodeWidth settings.gridCellWidth := le_max_left _ _
  have first : (((0 : ℕ) : ℤ), ((1 : ℕ) : ℤ)) ∈ nodeCells settings (sizedUi settings 0 0) :=
    mem_nodeCells_sizedUi.mpr (by omega)
  have second : (((0 : ℕ) : ℤ), ((1 : ℕ) : ℤ)) ∈ nodeCells settings (sizedUi settings 0 1) :=
    mem_nodeCells_sizedUi.mpr (by omega)
  exact Finset.disjoint_left.mp (neighbouringNodes_apart (.inr one_ne_zero) apart) first second

theorem fits_of_keepsApart (apart : ∀ configs : NodeConfigs, (configs.map Prod.fst).Nodup →
    KeepsApart settings [] configs) :
    settings.nodeWidth ≤ settings.gridCellWidth ∧ settings.nodeHeight ≤ settings.gridCellHeight := by
  have nodup : ∀ right below, ((neighbouringNodes settings right below).map Prod.fst).Nodup := by
    intro right below
    change ["a", "b"].Nodup
    decide
  constructor
  · by_contra exceeds
    exact neighbouringNodes_wide (Nat.lt_of_not_le exceeds) (apart _ (nodup 1 0))
  · by_contra exceeds
    exact neighbouringNodes_high (Nat.lt_of_not_le exceeds) (apart _ (nodup 0 1))

end

/-- The repair keeps the nodes apart where the nodes with a position in pixels have a size or fit into a
cell, and the settings for which it always does are those for which they always fit. -/
theorem repair_disjoint_iff (settings : BoardLayout) :
    (∀ excludeNodeIds (configs : NodeConfigs), (configs.map Prod.fst).Nodup →
      LegacyFits settings excludeNodeIds configs → KeepsApart settings excludeNodeIds configs) ∧
    ((∀ excludeNodeIds (configs : NodeConfigs), (configs.map Prod.fst).Nodup →
        KeepsApart settings excludeNodeIds configs) ↔
      ∀ excludeNodeIds (configs : NodeConfigs), (configs.map Prod.fst).Nodup →
        LegacyFits settings excludeNodeIds configs) := by
  refine ⟨fun _ _ nodup fits => keepsApart_of_legacyFits nodup fits, fun apart _ _ _ => ?_,
    fun fits excludeNodeIds configs nodup => keepsApart_of_legacyFits nodup (fits excludeNodeIds configs nodup)⟩
  obtain ⟨fitsWidth, fitsHeight⟩ := fits_of_keepsApart (apart [])
  exact fun _ _ _ _ _ _ _ => ⟨fun _ => fitsWidth, fun _ => fitsHeight⟩

/-- Nodes three cells wide. -/
def wideNodes : BoardLayout where
  gridCellWidth := 240
  gridCellHeight := 260
  nodeWidth := 720
  nodeHeight := 250
  gridCellWidth_valid := by decide
  gridCellHeight_valid := by decide
  nodeWidth_valid := by decide
  nodeHeight_valid := by decide

/-- A node on the grid, one two cells wide with a size, on the same place in pixels, and one without a place. -/
theorem repair_disjoint_sized :
    KeepsApart wideNodes ["d"]
      [("a", .grid ⟨0, 0, none, none⟩), ("b", .legacy 0 0 (some ⟨480, by decide⟩) (some ⟨250, by decide⟩)),
        ("c", .missing), ("d", .legacy 0 0 none none)] := by
  refine (repair_disjoint_iff wideNodes).1 _ _ (by decide) fun nodeId x y width height mem notExcluded => ?_
  simp only [List.mem_cons, Prod.mk.injEq, reduceCtorEq, and_false, false_or, NodeUi.legacy.injEq, List.not_mem_nil,
    or_false] at mem
  rcases mem with ⟨-, -, -, rfl, rfl⟩ | ⟨rfl, -⟩
  · exact ⟨nofun, nofun⟩
  · exact absurd List.mem_cons_self notExcluded

/-- Two nodes without a size, 240 pixels apart, overlap after the repair. -/
theorem repair_disjoint_fails :
    ¬ KeepsApart wideNodes [] [("a", .legacy 0 0 none none), ("b", .legacy 240 0 none none)] := by
  have isPair : neighbouringNodes wideNodes 1 0 =
      [("a", .legacy 0 0 none none), ("b", .legacy 240 0 none none)] := by
    simp [neighbouringNodes, wideNodes]
  rw [← isPair]
  exact neighbouringNodes_wide (by decide)

end AgentPark.Layout
