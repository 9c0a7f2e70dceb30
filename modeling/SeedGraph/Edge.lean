import SeedGraph.Id

/-!
# Edges between seeds

A seed names each of its dependencies by a *key*: a position, a name, or a number of its own for an
edge that only asks to be emitted later.  The edges of one seed form a map that remembers the order
in which its keys first came up, since diagnostics list edges in that order.

## Main definitions

* `Key`, `EdgeKind`, `Edge`: one edge, seen from the seed that depends.
* `Dependencies`: the edges of one seed.  `insert` replaces the target of a known key in place and
  appends a new key; `addOrdering` finds a key of its own.
* `Referent`: one edge, seen from the seed that is depended on.

## The choice of an ordering key

Ordering keys are 32-bit words.  `nextOrdinal` is where the search for a free one starts, and the
search goes round past the largest word.  Among the `edges.length + 1` words from there on at least
one is free as long as there are fewer than `2 ^ 32` edges, so the search looks at no more of them.
-/

namespace SeedGraph

/-- What an edge is for. -/
inductive EdgeKind where
  /-- The seed consumes the target's result. -/
  | data
  /-- The seed is only to be emitted after the target. -/
  | ordering
  deriving DecidableEq, Repr

/-- The name under which a kind of edge is serialized. -/
def EdgeKind.name : EdgeKind → String
  | .data => "Data"
  | .ordering => "Ordering"

/-- The name of an edge among those of the seed that owns it. -/
inductive Key where
  /-- A positional input. -/
  | arg (position : UInt16)
  /-- A named input. -/
  | named (name : String)
  /-- An edge that only orders; the number is local to the owning seed. -/
  | ordering (ordinal : UInt32)
  deriving DecidableEq, Repr

namespace Key

/-- The kind of edge that a key denotes. -/
def kind : Key → EdgeKind
  | .arg _ | .named _ => .data
  | .ordering _ => .ordering

/-- Does the key denote an input? -/
def isData (key : Key) : Bool :=
  decide (key.kind = .data)

/-- Does the key denote an edge that only orders? -/
def isOrdering (key : Key) : Bool :=
  decide (key.kind = .ordering)

/-- The text of a key: `#n` for a position, the name itself, `~n` for an ordering edge. -/
def display : Key → String
  | .arg position => "#" ++ toString position.toNat
  | .named name => name
  | .ordering ordinal => "~" ++ toString ordinal.toNat

end Key

/-- An edge as its owner holds it. -/
structure Edge where
  /-- The owner's name for the edge. -/
  key : Key
  /-- The seed depended on. -/
  target : SeedId
  deriving DecidableEq, Repr

/-- An edge as its target sees it: the seed `source` depends on it under `key`. -/
structure Referent where
  /-- The seed that depends. -/
  source : SeedId
  /-- The name of the edge in that seed. -/
  key : Key
  deriving DecidableEq, Repr

/-- Give `key` the target `target` in a list of edges: a known key keeps its place, a new one is
appended. -/
def Edge.put (key : Key) (target : SeedId) : List Edge → List Edge
  | [] => [⟨key, target⟩]
  | edge :: rest =>
    if edge.key = key then ⟨key, target⟩ :: rest else edge :: Edge.put key target rest

/-- Adding an edge keeps every key where it was and appends the new key, if it is new. -/
theorem Edge.map_key_put (key : Key) (target : SeedId) (edges : List Edge) :
    (Edge.put key target edges).map Edge.key =
      if key ∈ edges.map Edge.key then edges.map Edge.key else edges.map Edge.key ++ [key] := by
  induction edges with
  | nil => simp [Edge.put]
  | cons edge rest ih =>
    by_cases h : edge.key = key
    · simp [Edge.put, h]
    · have h' : ¬ key = edge.key := fun e => h e.symm
      simp only [Edge.put, if_neg h, List.map_cons, ih, List.mem_cons, h', false_or]
      split <;> simp_all

/-- An edge under a key not in use goes to the end. -/
theorem Edge.put_of_notMem {key : Key} (target : SeedId) {edges : List Edge}
    (h : key ∉ edges.map Edge.key) : Edge.put key target edges = edges ++ [⟨key, target⟩] := by
  induction edges with
  | nil => rfl
  | cons edge rest ih =>
    have h' : edge.key ≠ key := fun e => h (by simp [e])
    have hrest : key ∉ rest.map Edge.key := fun m => h (by simp_all)
    simp [Edge.put, h', ih hrest]

/-- Adding an edge keeps keys distinct. -/
theorem Edge.nodup_map_key_put {edges : List Edge} (h : (edges.map Edge.key).Nodup) (key : Key)
    (target : SeedId) : ((Edge.put key target edges).map Edge.key).Nodup := by
  rw [Edge.map_key_put]
  by_cases hmem : key ∈ edges.map Edge.key
  · rw [if_pos hmem]
    exact h
  · rw [if_neg hmem, List.nodup_append]
    refine ⟨h, by simp, fun other hother new hnew => ?_⟩
    rintro rfl
    exact hmem (List.mem_singleton.1 hnew ▸ hother)

/-- The edges of one seed, in the order in which their keys were first added. -/
@[ext]
structure Dependencies where
  /-- The edges. -/
  edges : List Edge
  /-- Where the search for a free ordering key starts. -/
  nextOrdinal : UInt32
  /-- No two edges have the same key. -/
  distinct : (edges.map Edge.key).Nodup
  deriving DecidableEq, Repr

namespace Dependencies

/-- No edges. -/
def empty : Dependencies where
  edges := []
  nextOrdinal := 0
  distinct := List.nodup_nil

/-- The target of the edge under `key`. -/
def get? (deps : Dependencies) (key : Key) : Option SeedId :=
  (deps.edges.find? fun edge => edge.key = key).map Edge.target

/-- The least starting point above `ordinal` that does not lie before `deps.nextOrdinal`; the
largest word has nothing above it and stands for itself. -/
def ordinalPast (deps : Dependencies) (ordinal : UInt32) : UInt32 :=
  let above := if ordinal = 4294967295 then ordinal else ordinal + 1
  if deps.nextOrdinal < above then above else deps.nextOrdinal

/-- Add an edge, or replace the target of an edge with the same key. -/
def insert (deps : Dependencies) (key : Key) (target : SeedId) : Dependencies where
  edges := Edge.put key target deps.edges
  nextOrdinal :=
    match key with
    | .ordering ordinal => deps.ordinalPast ordinal
    | .arg _ | .named _ => deps.nextOrdinal
  distinct := Edge.nodup_map_key_put deps.distinct key target

/-- The result of adding edges one after the other. -/
def ofEdges (edges : List Edge) : Dependencies :=
  edges.foldl (fun deps edge => deps.insert edge.key edge.target) empty

/-- Add an edge and report the target that its key had before, if any. -/
def add (deps : Dependencies) (key : Key) (target : SeedId) : Option SeedId × Dependencies :=
  (deps.get? key, deps.insert key target)

/-- Is there an edge under `key`? -/
def contains (deps : Dependencies) (key : Key) : Bool :=
  deps.edges.any fun edge => edge.key = key

/-- The first ordering edge that already leads to `target`. -/
def orderingTo? (deps : Dependencies) (target : SeedId) : Option Key :=
  (deps.edges.find? fun edge => edge.key.isOrdering && edge.target = target).map Edge.key

/-- The words that are tried as a new ordering key, in the order of trial. -/
def ordinalCandidates (deps : Dependencies) : List UInt32 :=
  (List.range (deps.edges.length + 1)).map fun k => deps.nextOrdinal + UInt32.ofNat k

/-- The first word from `nextOrdinal` on, past the largest word if need be, that names no edge. -/
def freshOrdinal (deps : Dependencies) : UInt32 :=
  (deps.ordinalCandidates.find? fun ordinal => !deps.contains (.ordering ordinal)).getD
    deps.nextOrdinal

/-- Ask for `target` to be emitted first.  A second request for the same target changes nothing;
otherwise the edge gets a key that is not in use. -/
def addOrdering (deps : Dependencies) (target : SeedId) : Key × Dependencies :=
  match deps.orderingTo? target with
  | some key => (key, deps)
  | none =>
    let ordinal := deps.freshOrdinal
    (.ordering ordinal,
      { edges := Edge.put (.ordering ordinal) target deps.edges
        nextOrdinal := ordinal + 1
        distinct := Edge.nodup_map_key_put deps.distinct _ target })

/-- The edges that carry data. -/
def dataEdges (deps : Dependencies) : List Edge :=
  deps.edges.filter fun edge => edge.key.isData

/-- The edges that only order. -/
def orderingEdges (deps : Dependencies) : List Edge :=
  deps.edges.filter fun edge => edge.key.isOrdering

/-- What the edges of the seed `source` mean for their targets: one pair for each edge. -/
def referentEntries (deps : Dependencies) (source : SeedId) : List (SeedId × Referent) :=
  deps.edges.map fun edge => (edge.target, ⟨source, edge.key⟩)

end Dependencies

/-- Lookup after adding an edge: the new key has the new target, other keys keep theirs. -/
theorem Dependencies.get?_insert (deps : Dependencies) (key other : Key) (target : SeedId) :
    (deps.insert key target).get? other = if key = other then some target else deps.get? other := by
  simp only [Dependencies.get?, Dependencies.insert]
  induction deps.edges with
  | nil =>
    by_cases h : key = other <;> simp [Edge.put, h]
  | cons edge rest ih =>
    by_cases hkey : edge.key = key
    · by_cases h : key = other
      · simp [Edge.put, hkey, h]
      · have h' : edge.key ≠ other := fun e => h (hkey.symm.trans e)
        simp [Edge.put, hkey, h]
    · by_cases hother : edge.key = other
      · have h : key ≠ other := fun e => hkey (hother.trans e.symm)
        have h' : ¬ other = key := fun e => h e.symm
        simp [Edge.put, hother, h, h']
      · simpa [Edge.put, hkey, hother] using ih

end SeedGraph
