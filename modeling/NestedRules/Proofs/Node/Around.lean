import NestedRules.Node.Place
import NestedRules.Proofs.Node.Rows

namespace NestedRules

namespace Frame

/-- The tree with a node in the gap of the innermost frame. -/
def around : List Frame → Node → Node
  | [], n => n
  | fr :: inner, n => (fr.fill (around inner n)).toNode

theorem toNode_wrap (frames : List Frame) (g : Group) :
    (wrap frames g).toNode = around frames g.toNode := by
  induction frames with
  | nil => rfl
  | cons fr inner ih => rw [wrap, around, ih]

theorem around_append (outer inner : List Frame) (n : Node) :
    around (outer ++ inner) n = around outer (around inner n) := by
  induction outer with
  | nil => rfl
  | cons fr outer ih => rw [List.cons_append, around, around, ih]

theorem id_around {frames : List Frame} {n m : Node} (same : n.id = m.id) :
    (around frames n).id = (around frames m).id := by
  cases frames with
  | nil => exact same
  | cons fr inner => rfl

def row (fr : Frame) (member : String) : Row :=
  ⟨.group fr.header [], fr.before.map Node.id ++ member :: fr.after.map Node.id⟩

theorem rows_fill (fr : Frame) (n : Node) :
    (fr.fill n).toNode.rows =
      fr.row n.id :: Forest.rows fr.before ++ n.rows ++ Forest.rows fr.after := by
  simp [Group.toNode, fill, row]

/-- Two nodes with one id stand among the same rows. -/
theorem rows_around (frames : List Frame) (id : String) :
    ∃ before after, ∀ n : Node, n.id = id →
      (around frames n).rows = before ++ n.rows ++ after := by
  induction frames with
  | nil => exact ⟨[], [], fun n _ => by simp [around]⟩
  | cons fr inner ih =>
    obtain ⟨before, after, split⟩ := ih
    refine ⟨fr.row (around inner (.filter (.blank id))).id :: Forest.rows fr.before ++ before,
      after ++ Forest.rows fr.after, ?_⟩
    intro n same
    have top : (around inner n).id = (around inner (.filter (.blank id))).id := id_around same
    rw [around, rows_fill, split n same, top]
    simp

theorem mem_rows_around {frames : List Frame} {n : Node} {row : Row} (member : row ∈ n.rows) :
    row ∈ (around frames n).rows := by
  obtain ⟨before, after, split⟩ := rows_around frames n.id
  rw [split n rfl]
  simp [member]

end Frame

namespace Place

def frames (p : Place) : List Frame := p.outer ++ [p.frame]

theorem toNode_put (p : Place) (n : Node) : (p.put n).toNode = Frame.around p.frames n := by
  rw [put, Frame.toNode_wrap, frames, Frame.around_append]
  rfl

theorem toNode_without (p : Place) :
    p.without.toNode = Frame.around p.outer p.frame.close.toNode := Frame.toNode_wrap ..

theorem frames_under (fr : Frame) (p : Place) : (p.under fr).frames = fr :: p.frames := rfl

theorem node_under (fr : Frame) (p : Place) : (p.under fr).node = p.node := rfl

end Place

mutual

/-- A search that hits gives back the tree around the node that was looked for. -/
theorem Node.around_of_place? {id : String} {p : Place} : (n : Node) → n.place? id = some p →
    Frame.around p.frames p.node = n ∧ p.node.id = id
  | .filter _, found => by simp [Node.place?] at found
  | .group h cs, found => by simpa using Forest.around_of_place? h [] cs found

theorem Forest.around_of_place? {id : String} {p : Place} (h : Header) (before : Forest) :
    (cs : Forest) → Forest.place? id h before cs = some p →
      Frame.around p.frames p.node = .group h (before ++ cs) ∧ p.node.id = id
  | [], found => by simp [Forest.place?] at found
  | c :: cs, found => by
    unfold Forest.place? at found
    split at found
    · rename_i hit
      cases found
      exact ⟨rfl, hit⟩
    · split at found
      · rename_i inner below
        cases found
        have ⟨rebuilt, same⟩ := Node.around_of_place? c below
        refine ⟨?_, same⟩
        rw [Place.frames_under, Frame.around, Place.node_under, rebuilt]
        rfl
      · have later := Forest.around_of_place? h (before ++ [c]) cs found
        simpa using later

end

mutual

theorem Node.place?_eq_find? (id : String) : (n : Node) →
    (n.place? id).map Place.node = (Forest.preorder n.children).find? (·.id = id)
  | .filter _ => rfl
  | .group h cs => Forest.place?_eq_find? id h [] cs

theorem Forest.place?_eq_find? (id : String) (h : Header) (before : Forest) : (cs : Forest) →
    (Forest.place? id h before cs).map Place.node = (Forest.preorder cs).find? (·.id = id)
  | [] => rfl
  | c :: cs => by
    have first := Node.place?_eq_find? id c
    have rest := Forest.place?_eq_find? id h (before ++ [c]) cs
    rw [Forest.place?, Forest.preorder, Node.preorder_eq c, List.cons_append, List.find?_cons,
      List.find?_append]
    by_cases hit : c.id = id
    · simp [hit]
    · simp only [hit, if_false, decide_false, ← first, ← rest]
      cases Node.place? id c <;> rfl

end

end NestedRules
