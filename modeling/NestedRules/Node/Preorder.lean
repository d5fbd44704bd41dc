import NestedRules.Node.Basic

namespace NestedRules

mutual

def Node.size : Node → Nat
  | .group _ cs => 1 + Forest.size cs
  | .filter _ => 1

def Forest.size : Forest → Nat
  | [] => 0
  | c :: cs => c.size + Forest.size cs

end

mutual

def Node.preorder : Node → List Node
  | .group h cs => .group h cs :: Forest.preorder cs
  | .filter f => [.filter f]

def Forest.preorder : Forest → List Node
  | [] => []
  | c :: cs => c.preorder ++ Forest.preorder cs

end

theorem Forest.size_append (as bs : Forest) :
    Forest.size (as ++ bs) = Forest.size as + Forest.size bs := by
  induction as with
  | nil => simp [Forest.size]
  | cons a as ih => simp only [List.cons_append, Forest.size, ih]; omega

theorem Forest.preorder_append (as bs : Forest) :
    Forest.preorder (as ++ bs) = Forest.preorder as ++ Forest.preorder bs := by
  induction as with
  | nil => rfl
  | cons a as ih => simp only [List.cons_append, Forest.preorder, ih, List.append_assoc]

theorem Node.preorder_eq (n : Node) : n.preorder = n :: Forest.preorder n.children := by
  cases n <;> rfl

theorem Node.mem_preorder_self (n : Node) : n ∈ n.preorder := by
  simp [preorder_eq]

theorem Forest.mem_preorder_iff {n : Node} {cs : Forest} :
    n ∈ Forest.preorder cs ↔ ∃ c ∈ cs, n ∈ c.preorder := by
  induction cs with
  | nil => simp [Forest.preorder]
  | cons c cs ih => simp [Forest.preorder, ih]

theorem Node.mem_preorder_trans {l m n : Node} (below : l ∈ m.preorder) (visited : m ∈ n.preorder) :
    l ∈ n.preorder := by
  induction n with
  | filter f =>
    obtain rfl : m = .filter f := by simpa [preorder] using visited
    exact below
  | group header children ih =>
    rw [preorder_eq, List.mem_cons] at visited
    rcases visited with rfl | inside
    · exact below
    · obtain ⟨c, member, within⟩ := Forest.mem_preorder_iff.mp inside
      rw [preorder_eq]
      exact .tail _ (Forest.mem_preorder_iff.mpr ⟨c, member, ih c member within⟩)

theorem Node.mem_preorder_of_child {m n c : Node} (visited : n ∈ m.preorder)
    (child : c ∈ n.children) : c ∈ m.preorder := by
  have below : c ∈ n.preorder := by
    rw [preorder_eq]
    exact .tail _ (Forest.mem_preorder_iff.mpr ⟨c, child, c.mem_preorder_self⟩)
  exact mem_preorder_trans below visited

theorem Node.size_eq (n : Node) : n.size = 1 + Forest.size n.children := by
  cases n <;> rfl

/-- A traversal in progress: the subtrees still to visit, the next one first. -/
structure Walk where
  pending : Forest

namespace Walk

def next? : Walk → Option (Node × Walk)
  | ⟨[]⟩ => none
  | ⟨n :: later⟩ => some (n, ⟨n.children ++ later⟩)

theorem size_next? {w rest : Walk} {n : Node} (h : w.next? = some (n, rest)) :
    Forest.size rest.pending < Forest.size w.pending := by
  match w, h with
  | ⟨m :: later⟩, h =>
    simp only [next?, Option.some.injEq, Prod.mk.injEq] at h
    obtain ⟨rfl, rfl⟩ := h
    simp only [Forest.size, Forest.size_append, Node.size_eq m]
    omega

def toList (w : Walk) : List Node :=
  match _h : w.next? with
  | none => []
  | some (n, rest) => n :: rest.toList
termination_by Forest.size w.pending
decreasing_by exact size_next? _h

theorem toList_eq_preorder (w : Walk) : w.toList = Forest.preorder w.pending := by
  fun_induction toList w with
  | case1 w h =>
    match w, h with
    | ⟨[]⟩, _ => rfl
  | case2 w n rest h ih =>
    match w, h with
    | ⟨m :: later⟩, h =>
      simp only [next?, Option.some.injEq, Prod.mk.injEq] at h
      obtain ⟨rfl, rfl⟩ := h
      rw [ih, Forest.preorder_append]
      simp only [Forest.preorder, Node.preorder_eq m, List.cons_append]

end Walk

namespace Node

def walk (n : Node) : Walk := ⟨[n]⟩

def nodes (n : Node) : List Node := n.walk.toList

theorem nodes_eq_preorder (n : Node) : n.nodes = n.preorder := by
  simp [nodes, walk, Walk.toList_eq_preorder, Forest.preorder]

def ids (n : Node) : List String := n.nodes.map Node.id

end Node

end NestedRules
