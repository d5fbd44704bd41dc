import NestedRules.Proofs.Node.Route

namespace NestedRules

/-- Other attributes for the nodes of a tree, under the same ids. -/
@[ext]
structure Relabel where
  header : Header → Header
  filter : Filter → Filter
  id_header : ∀ h, (header h).id = h.id
  id_filter : ∀ f, (filter f).id = f.id

namespace Relabel

mutual

def node (l : Relabel) : Node → Node
  | .group h cs => .group (l.header h) (l.forest cs)
  | .filter f => .filter (l.filter f)

def forest (l : Relabel) : Forest → Forest
  | [] => []
  | c :: cs => l.node c :: l.forest cs

end

variable (l : Relabel)

def after (l first : Relabel) : Relabel where
  header h := l.header (first.header h)
  filter f := l.filter (first.filter f)
  id_header h := (l.id_header _).trans (first.id_header h)
  id_filter f := (l.id_filter _).trans (first.id_filter f)

def Leaves (id : String) : Prop :=
  (∀ h : Header, h.id = id → l.header h = h) ∧ ∀ f : Filter, f.id = id → l.filter f = f

def own : Node → Node
  | .group h cs => .group (l.header h) cs
  | .filter f => .filter (l.filter f)

def path (p : Path) : Path := ⟨p.above.map l.node, l.node p.target⟩

theorem id_node (n : Node) : (l.node n).id = n.id := by
  cases n with
  | group h cs => exact l.id_header h
  | filter f => exact l.id_filter f

theorem forest_append (as bs : Forest) : l.forest (as ++ bs) = l.forest as ++ l.forest bs := by
  induction as with
  | nil => rfl
  | cons a as ih => rw [List.cons_append, forest, forest, ih, List.cons_append]

mutual

theorem node_after (first : Relabel) : (n : Node) →
    (l.after first).node n = l.node (first.node n)
  | .group h cs => by
    have members := forest_after first cs
    rw [node, node, node, members, after]
  | .filter f => rfl

theorem forest_after (first : Relabel) : (cs : Forest) →
    (l.after first).forest cs = l.forest (first.forest cs)
  | [] => rfl
  | c :: cs => by rw [forest, forest, forest, node_after first c, forest_after first cs]

end

mutual

theorem ids_node : (n : Node) → (l.node n).ids = n.ids
  | .group h cs => by
    have members := ids_forest cs
    rw [Node.ids_eq, Node.ids_eq, id_node]
    exact congrArg (_ :: ·) members
  | .filter f => by rw [Node.ids_eq, Node.ids_eq, id_node]; rfl

theorem ids_forest : (cs : Forest) → Forest.ids (l.forest cs) = Forest.ids cs
  | [] => rfl
  | c :: cs => by rw [forest, Forest.ids_cons, Forest.ids_cons, ids_node c, ids_forest cs]

end

theorem ids_path (p : Path) : (l.path p).ids = p.ids := by
  simp [path, Path.ids, Path.nodes, Function.comp_def, id_node]

mutual

theorem path?_node (id : String) : (n : Node) → (l.node n).path? id = (n.path? id).map l.path
  | .group h cs => by
    rw [node, Node.path?, Node.path?, l.id_header, path?_forest id cs]
    split
    · simp [path, Path.root, node]
    · simp [Function.comp_def, path, Path.under, node]
  | .filter f => by
    rw [node, Node.path?, Node.path?, l.id_filter]
    split
    · simp [path, Path.root, node]
    · rfl

theorem path?_forest (id : String) : (cs : Forest) →
    Forest.path? id (l.forest cs) = (Forest.path? id cs).map l.path
  | [] => rfl
  | c :: cs => by
    rw [forest, Forest.path?, Forest.path?, path?_node id c, path?_forest id cs]
    cases c.path? id <;> rfl

end

theorem forest_eq_map (cs : Forest) : l.forest cs = cs.map l.node := by
  induction cs with
  | nil => rfl
  | cons c cs ih => rw [forest, ih, List.map_cons]

def group (g : Group) : Group := ⟨l.header g.toHeader, l.forest g.children⟩

def frame (fr : Frame) : Frame := ⟨l.header fr.header, l.forest fr.before, l.forest fr.after⟩

def place (p : Place) : Place := ⟨p.outer.map l.frame, l.frame p.frame, l.node p.node⟩

theorem children_own (n : Node) : (l.own n).children = n.children := by
  cases n <;> rfl

theorem isGroup_node (n : Node) : (l.node n).isGroup = n.isGroup := by
  cases n <;> rfl

theorem group_fill (fr : Frame) (n : Node) : l.group (fr.fill n) = (l.frame fr).fill (l.node n) := by
  rw [Frame.fill, group, forest_append, forest]
  rfl

theorem group_close (fr : Frame) : l.group fr.close = (l.frame fr).close := by
  rw [Frame.close, group, forest_append]
  rfl

theorem group_insert (g : Group) (i : Nat) (n : Node) :
    l.group (g.insert i n) = (l.group g).insert i (l.node n) := by
  simp [group, Group.insert, forest_eq_map]

theorem group_wrap (frames : List Frame) (g : Group) :
    l.group (Frame.wrap frames g) = Frame.wrap (frames.map l.frame) (l.group g) := by
  induction frames with
  | nil => rfl
  | cons fr inner ih => rw [Frame.wrap, group_fill, List.map_cons, Frame.wrap, ← ih]; rfl

theorem group_without (p : Place) : l.group p.without = (l.place p).without := by
  rw [Place.without, group_wrap, group_close]
  rfl

theorem parent_place (p : Place) : (l.place p).parent = l.group p.parent :=
  (l.group_fill p.frame p.node).symm

theorem index_place (p : Place) : (l.place p).index = p.index := by
  simp [place, frame, Place.index, forest_eq_map]

mutual

theorem place?_node (id : String) : (n : Node) →
    (l.node n).place? id = (n.place? id).map l.place
  | .group h cs => place?_forest id h [] cs
  | .filter _ => rfl

theorem place?_forest (id : String) (h : Header) (before : Forest) : (cs : Forest) →
    Forest.place? id (l.header h) (l.forest before) (l.forest cs) =
      (Forest.place? id h before cs).map l.place
  | [] => rfl
  | c :: cs => by
    have passed : l.forest (before ++ [c]) = l.forest before ++ [l.node c] := l.forest_append before [c]
    rw [forest, Forest.place?, Forest.place?, id_node, place?_node id c, ← passed,
      place?_forest id h (before ++ [c]) cs]
    split
    · rfl
    · cases c.place? id <;> rfl

end

variable {l}

mutual

theorem node_of_leaves : {n : Node} → (∀ id ∈ n.ids, l.Leaves id) → l.node n = n
  | .group h cs, leaves => by
    simp only [Node.ids_eq, Node.id, Node.children, List.forall_mem_cons] at leaves
    rw [node, leaves.1.1 h rfl, forest_of_leaves leaves.2]
  | .filter f, leaves => by rw [node, (leaves f.id (Node.filter f).id_mem_ids).2 f rfl]

theorem forest_of_leaves : {cs : Forest} → (∀ id ∈ Forest.ids cs, l.Leaves id) → l.forest cs = cs
  | [], _ => rfl
  | c :: cs, leaves => by
    simp only [Forest.ids_cons, List.forall_mem_append] at leaves
    rw [forest, node_of_leaves leaves.1, forest_of_leaves leaves.2]

end

theorem node_eq_own {n : Node} (distinct : n.ids.Nodup) (leaves : ∀ id, id ≠ n.id → l.Leaves id) :
    l.node n = l.own n := by
  cases n with
  | filter f => rfl
  | group h cs =>
    rw [Node.ids_eq, List.nodup_cons] at distinct
    have members : l.forest cs = cs :=
      forest_of_leaves fun id inside => leaves id fun same => distinct.1 (same ▸ inside)
    rw [node, members, own]

/-- Where a relabelling changes nothing but the node in a gap, the tree around it stays. -/
theorem node_around {frames : List Frame} {n : Node} (distinct : (Frame.around frames n).ids.Nodup)
    (leaves : ∀ id, id ≠ n.id → l.Leaves id) :
    l.node (Frame.around frames n) = Frame.around frames (l.own n) := by
  induction frames with
  | nil => exact node_eq_own distinct leaves
  | cons fr inner ih =>
    obtain ⟨kept, apart⟩ := Frame.nodup_around_cons distinct
    obtain ⟨notTop, notBefore, notAfter⟩ := apart n.id (Frame.mem_ids_around n.id_mem_ids)
    have before : l.forest fr.before = fr.before :=
      forest_of_leaves fun id inside => leaves id fun same => notBefore (same ▸ inside)
    have later : l.forest fr.after = fr.after :=
      forest_of_leaves fun id inside => leaves id fun same => notAfter (same ▸ inside)
    have top : l.header fr.header = fr.header := (leaves fr.header.id notTop).1 fr.header rfl
    rw [Frame.around, Frame.around, Frame.fill, Group.toNode, node, forest_append, forest, ih kept,
      before, later, top]
    rfl

end Relabel

end NestedRules
