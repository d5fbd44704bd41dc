import NestedRules.Node.Path
import NestedRules.Proofs.Node.Around

namespace NestedRules

namespace Path

def bare (p : Path) : Path := ⟨p.above.map Node.bare, p.target.bare⟩

theorem bare_under (top : Node) (p : Path) : (p.under top).bare = p.bare.under top.bare := rfl

end Path

def Node.route? (id : String) (n : Node) : Option Path := (n.path? id).map Path.bare

def Forest.route? (id : String) (forest : Forest) : Option Path :=
  (Forest.path? id forest).map Path.bare

theorem Node.route?_group (id : String) (h : Header) (cs : Forest) :
    (Node.group h cs).route? id =
      if h.id = id then some (.root (.group h []))
      else (Forest.route? id cs).map (.under (.group h [])) := by
  rw [route?, path?]
  split
  · rfl
  · simp [Forest.route?, Function.comp_def, Path.bare_under, bare]

theorem Node.route?_filter (id : String) (f : Filter) :
    (Node.filter f).route? id = if f.id = id then some (.root (.filter f)) else none := by
  rw [route?, path?]
  split <;> rfl

theorem Node.route?_self (n : Node) : n.route? n.id = some (.root n.bare) := by
  cases n with
  | group h cs => exact (route?_group ..).trans (if_pos rfl)
  | filter f => exact (route?_filter ..).trans (if_pos rfl)

namespace Forest

theorem route?_nil (id : String) : Forest.route? id [] = none := rfl

theorem route?_cons (id : String) (c : Node) (cs : Forest) :
    Forest.route? id (c :: cs) = (c.route? id).or (Forest.route? id cs) := by
  rw [Forest.route?, Forest.path?, Node.route?]
  cases c.path? id <;> rfl

theorem route?_append (id : String) (as bs : Forest) :
    Forest.route? id (as ++ bs) = (Forest.route? id as).or (Forest.route? id bs) := by
  induction as with
  | nil => rfl
  | cons a as ih => rw [List.cons_append, route?_cons, route?_cons, ih, Option.or_assoc]

end Forest

mutual

theorem Node.path?_eq_find? (id : String) : (n : Node) →
    (n.path? id).map Path.target = n.preorder.find? (·.id = id)
  | .filter f => by
    rw [Node.path?, Node.preorder, List.find?_singleton]
    by_cases hit : f.id = id <;> simp [hit, Node.id, Path.root]
  | .group h cs => by
    have below := Forest.path?_eq_find? id cs
    have top : (Node.group h cs).id = h.id := rfl
    rw [Node.path?, Node.preorder, List.find?_cons, top]
    by_cases hit : h.id = id
    · simp [hit, Path.root]
    · simp only [hit, if_false, decide_false, ← below, Option.map_map]
      rfl

theorem Forest.path?_eq_find? (id : String) : (cs : Forest) →
    (Forest.path? id cs).map Path.target = (Forest.preorder cs).find? (·.id = id)
  | [] => rfl
  | c :: cs => by
    have first := Node.path?_eq_find? id c
    have rest := Forest.path?_eq_find? id cs
    rw [Forest.path?, Forest.preorder, List.find?_append, ← first, ← rest]
    cases c.path? id <;> rfl

end

theorem Node.path?_eq_none_iff {id : String} {n : Node} : n.path? id = none ↔ id ∉ n.ids := by
  rw [← Option.map_eq_none_iff (f := Path.target), path?_eq_find?, List.find?_eq_none, ids,
    nodes_eq_preorder]
  simp

theorem Node.route?_eq_none_iff {id : String} {n : Node} : n.route? id = none ↔ id ∉ n.ids := by
  rw [route?, Option.map_eq_none_iff, path?_eq_none_iff]

theorem Node.exists_route? {id : String} {n : Node} (known : id ∈ n.ids) :
    ∃ p, n.route? id = some p :=
  Option.ne_none_iff_exists'.mp (mt route?_eq_none_iff.mp (not_not.mpr known))

theorem Node.mem_ids_of_route? {id : String} {n : Node} {p : Path} (found : n.route? id = some p) :
    id ∈ n.ids := by
  by_contra unknown
  rw [← route?_eq_none_iff, found] at unknown
  cases unknown

theorem Forest.route?_eq_none_iff {id : String} {cs : Forest} :
    Forest.route? id cs = none ↔ id ∉ Forest.ids cs := by
  induction cs with
  | nil => simp [route?_nil]
  | cons c cs ih => rw [route?_cons, Option.or_eq_none_iff, Node.route?_eq_none_iff, ih, ids_cons,
      List.mem_append, not_or]

namespace Frame

def bare (fr : Frame) : Node := .group fr.header []

theorem route?_fill (fr : Frame) (id : String) (n : Node) :
    (fr.fill n).toNode.route? id =
      if fr.header.id = id then some (.root fr.bare)
      else ((Forest.route? id fr.before).or
        ((n.route? id).or (Forest.route? id fr.after))).map (.under fr.bare) := by
  rw [fill, Group.toNode, Node.route?_group, Forest.route?_append, Forest.route?_cons]
  rfl

/-- What stands outside the gap is found on the same route whatever fills the gap. -/
theorem route?_around_congr {frames : List Frame} {id : String} {n m : Node}
    (same : n.route? id = m.route? id) :
    (around frames n).route? id = (around frames m).route? id := by
  induction frames with
  | nil => exact same
  | cons fr inner ih => rw [around, around, route?_fill, route?_fill, ih]

theorem mem_ids_around {frames : List Frame} {id : String} {n : Node} (inside : id ∈ n.ids) :
    id ∈ (around frames n).ids := by
  obtain ⟨before, after, split⟩ := rows_around frames n.id
  rw [← Node.map_id_rows, split n rfl]
  simp [Node.map_id_rows, inside]

theorem nodup_around_cons {fr : Frame} {inner : List Frame} {n : Node}
    (distinct : (around (fr :: inner) n).ids.Nodup) :
    (around inner n).ids.Nodup ∧ ∀ id ∈ (around inner n).ids,
      fr.header.id ≠ id ∧ id ∉ Forest.ids fr.before ∧ id ∉ Forest.ids fr.after := by
  rw [around, Node.ids_eq] at distinct
  simp only [fill, Group.toNode, Node.id, Node.children, Forest.ids_append, Forest.ids_cons,
    List.nodup_cons, List.nodup_append, List.mem_append] at distinct
  refine ⟨distinct.2.2.1.1, fun id inside => ⟨?_, fun earlier => ?_, fun later => ?_⟩⟩
  · rintro rfl
    exact distinct.1 (.inr (.inl inside))
  · exact distinct.2.2.2 id earlier id (.inl inside) rfl
  · exact distinct.2.2.1.2.2 id inside id later rfl

theorem nodup_of_around {frames : List Frame} {n : Node} (distinct : (around frames n).ids.Nodup) :
    n.ids.Nodup := by
  induction frames with
  | nil => exact distinct
  | cons fr inner ih => exact ih (nodup_around_cons distinct).1

theorem route?_around {frames : List Frame} {id : String} {n : Node} {p : Path}
    (distinct : (around frames n).ids.Nodup) (inside : n.route? id = some p) :
    (around frames n).route? id = some ⟨frames.map bare ++ p.above, p.target⟩ := by
  induction frames with
  | nil => exact inside
  | cons fr inner ih =>
    obtain ⟨kept, apart⟩ := nodup_around_cons distinct
    obtain ⟨notTop, notBefore, -⟩ := apart id (mem_ids_around (Node.mem_ids_of_route? inside))
    rw [around, route?_fill, if_neg notTop, Forest.route?_eq_none_iff.mpr notBefore, ih kept]
    rfl

end Frame

end NestedRules
