import Mathlib.Data.List.Nodup
import NestedRules.Rule.Basic

namespace NestedRules

def Node.descend? (n : Node) : List Nat → Option Node
  | [] => some n
  | i :: below => n.children[i]?.bind fun c => c.descend? below

structure Occurrence where
  address : List Nat
  node : Node
  deriving DecidableEq

def Occurrence.under (i : Nat) (o : Occurrence) : Occurrence := ⟨i :: o.address, o.node⟩

mutual

def Node.occurrences : Node → List Occurrence
  | .filter f => [⟨[], .filter f⟩]
  | .group h cs => ⟨[], .group h cs⟩ :: Forest.occurrences 0 cs

/-- The members from position `i` of a group on, with everything below them. -/
def Forest.occurrences (i : Nat) : Forest → List Occurrence
  | [] => []
  | c :: cs => c.occurrences.map (.under i) ++ Forest.occurrences (i + 1) cs

end

theorem Node.occurrences_eq (n : Node) :
    n.occurrences = ⟨[], n⟩ :: Forest.occurrences 0 n.children := by
  cases n <;> rfl

mutual

theorem Node.map_node_occurrences : (n : Node) → n.occurrences.map Occurrence.node = n.preorder
  | .filter _ => rfl
  | .group _ cs => by
    rw [Node.occurrences, Node.preorder, List.map_cons, Forest.map_node_occurrences 0 cs]

theorem Forest.map_node_occurrences (i : Nat) : (cs : Forest) →
    (Forest.occurrences i cs).map Occurrence.node = Forest.preorder cs
  | [] => rfl
  | c :: cs => by
    rw [Forest.occurrences, Forest.preorder, List.map_append, List.map_map,
      Forest.map_node_occurrences (i + 1) cs, ← Node.map_node_occurrences c]
    rfl

end

theorem Forest.mem_occurrences_iff {i : Nat} {cs : Forest} {o : Occurrence} :
    o ∈ Forest.occurrences i cs ↔
      ∃ (j : Nat) (c : Node) (below : Occurrence),
        cs[j]? = some c ∧ below ∈ c.occurrences ∧ below.under (i + j) = o := by
  induction cs generalizing i with
  | nil => simp [Forest.occurrences]
  | cons c cs ih =>
    rw [Forest.occurrences, List.mem_append, List.mem_map, ih]
    constructor
    · rintro (⟨below, inside, rfl⟩ | ⟨j, d, below, atJ, inside, rfl⟩)
      · exact ⟨0, c, below, rfl, inside, rfl⟩
      · exact ⟨j + 1, d, below, atJ, inside, by rw [Nat.add_right_comm, Nat.add_assoc]⟩
    · rintro ⟨j, d, below, atJ, inside, rfl⟩
      cases j with
      | zero =>
        cases atJ
        exact .inl ⟨below, inside, rfl⟩
      | succ j => exact .inr ⟨j, d, below, atJ, inside, by rw [Nat.add_right_comm, Nat.add_assoc]⟩

theorem Node.mem_occurrences_iff {n : Node} {o : Occurrence} :
    o ∈ n.occurrences ↔ n.descend? o.address = some o.node := by
  obtain ⟨address, m⟩ := o
  induction address generalizing n with
  | nil =>
    rw [occurrences_eq, List.mem_cons, Forest.mem_occurrences_iff]
    simp [descend?, Occurrence.under, eq_comm]
  | cons i address ih =>
    rw [occurrences_eq, List.mem_cons, Forest.mem_occurrences_iff, descend?, Option.bind_eq_some_iff]
    constructor
    · rintro (top | ⟨j, c, ⟨_, _⟩, atJ, inside, same⟩)
      · cases top
      · rw [Nat.zero_add] at same
        cases same
        exact ⟨c, atJ, ih.mp inside⟩
    · rintro ⟨c, atI, reached⟩
      exact .inr ⟨i, c, ⟨address, m⟩, atI, ih.mpr reached, by rw [Nat.zero_add]; rfl⟩

mutual

theorem Node.nodup_addresses : (n : Node) → (n.occurrences.map Occurrence.address).Nodup
  | .filter _ => List.nodup_singleton _
  | .group _ cs => by
    rw [Node.occurrences, List.map_cons, List.nodup_cons]
    refine ⟨fun member => ?_, Forest.nodup_addresses 0 cs⟩
    obtain ⟨o, inside, top⟩ := List.mem_map.mp member
    obtain ⟨j, c, below, -, -, rfl⟩ := Forest.mem_occurrences_iff.mp inside
    cases top

theorem Forest.nodup_addresses (i : Nat) : (cs : Forest) →
    ((Forest.occurrences i cs).map Occurrence.address).Nodup
  | [] => List.nodup_nil
  | c :: cs => by
    have first : ((c.occurrences.map (.under i)).map Occurrence.address).Nodup := by
      have apart := c.nodup_addresses.map (List.cons_injective (a := i))
      rw [List.map_map] at apart ⊢
      exact apart
    rw [Forest.occurrences, List.map_append, List.nodup_append]
    refine ⟨first, Forest.nodup_addresses (i + 1) cs, ?_⟩
    -- The members stand at different positions.
    intro address atFirst _ later rfl
    obtain ⟨o, inFirst, rfl⟩ := List.mem_map.mp atFirst
    obtain ⟨below, -, rfl⟩ := List.mem_map.mp inFirst
    obtain ⟨o, inLater, same⟩ := List.mem_map.mp later
    obtain ⟨j, d, other, -, -, rfl⟩ := Forest.mem_occurrences_iff.mp inLater
    have positions : i + 1 + j = i := (List.cons.inj same).1
    omega

end

namespace Walk

def after : Nat → Walk → Walk
  | 0, w => w
  | k + 1, w =>
    match w.next? with
    | none => w
    | some (_, rest) => rest.after k

def visit? (w : Walk) : Option Node := w.next?.map Prod.fst

theorem visit?_after (k : Nat) (w : Walk) : (w.after k).visit? = (Forest.preorder w.pending)[k]? := by
  induction k generalizing w with
  | zero =>
    match w with
    | ⟨[]⟩ => rfl
    | ⟨n :: later⟩ => simp [after, visit?, next?, Forest.preorder, Node.preorder_eq]
  | succ k ih =>
    match w with
    | ⟨[]⟩ => rfl
    | ⟨n :: later⟩ =>
      have stepped : (after (k + 1) ⟨n :: later⟩) = after k ⟨n.children ++ later⟩ := rfl
      rw [stepped, ih, Forest.preorder_append, Forest.preorder, Node.preorder_eq, List.cons_append,
        List.getElem?_cons_succ]

end Walk

mutual

theorem Node.length_preorder : (n : Node) → n.preorder.length = n.size
  | .filter _ => rfl
  | .group _ cs => by
    rw [Node.preorder, Node.size, List.length_cons, Forest.length_preorder cs, Nat.add_comm]

theorem Forest.length_preorder : (cs : Forest) → (Forest.preorder cs).length = Forest.size cs
  | [] => rfl
  | c :: cs => by
    rw [Forest.preorder, Forest.size, List.length_append, Node.length_preorder c,
      Forest.length_preorder cs]

end

theorem Forest.preorder_eq_flatMap (cs : Forest) : Forest.preorder cs = cs.flatMap Node.preorder := by
  induction cs with
  | nil => rfl
  | cons c cs ih => rw [Forest.preorder, ih, List.flatMap_cons]

theorem Node.nodes_eq_flatMap (n : Node) : n.nodes = n :: n.children.flatMap Node.nodes := by
  have same : Node.nodes = Node.preorder := funext Node.nodes_eq_preorder
  rw [same, n.preorder_eq, Forest.preorder_eq_flatMap]

theorem Node.length_nodes (n : Node) : n.nodes.length = n.size := by
  rw [n.nodes_eq_preorder, n.length_preorder]

/-- A walk takes as many steps as the tree has nodes and is at its end from then on. Its stops are the
    node itself, then those of the walks over its members from left to right. Every address in the tree
    is stopped at once, and the count of the stops is the size of a rule. -/
theorem Node.walk_exact (n : Node) :
    n.nodes = n :: n.children.flatMap Node.nodes ∧
      (∀ k, (n.walk.after k).visit? = n.nodes[k]?) ∧
      (∀ k, (n.walk.after k).next? = none ↔ n.size ≤ k) ∧
      n.nodes = n.occurrences.map Occurrence.node ∧
      (n.occurrences.map Occurrence.address).Nodup ∧
      (∀ address m, ⟨address, m⟩ ∈ n.occurrences ↔ n.descend? address = some m) ∧
      n.nodes.length = n.size ∧ ∀ r : Rule, r.size = r.node.size := by
  have stops (k : Nat) : (n.walk.after k).visit? = n.nodes[k]? := by
    rw [Walk.visit?_after, n.nodes_eq_preorder, walk, Forest.preorder, Forest.preorder, List.append_nil]
  refine ⟨n.nodes_eq_flatMap, stops, fun k => ?_, ?_, n.nodup_addresses,
    fun _ _ => mem_occurrences_iff, n.length_nodes, fun r => r.node.length_nodes⟩
  · rw [← n.length_nodes, ← List.getElem?_eq_none_iff, ← stops, Walk.visit?, Option.map_eq_none_iff]
  · rw [n.map_node_occurrences, n.nodes_eq_preorder]

end NestedRules
