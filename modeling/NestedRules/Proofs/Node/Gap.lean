import NestedRules.Proofs.Node.Route

namespace NestedRules

mutual

def Node.substitute (n : Node) (id : String) (new : Node) : Node :=
  match n with
  | .filter f => if f.id = id then new else .filter f
  | .group h cs => if h.id = id then new else .group h (Forest.substitute cs id new)

def Forest.substitute (cs : Forest) (id : String) (new : Node) : Forest :=
  match cs with
  | [] => []
  | c :: cs => c.substitute id new :: Forest.substitute cs id new

end

mutual

/-- The ids of a tree in pre-order, without those of the nodes that carry `id` and of what is below
    them. -/
def Node.idsOutside (id : String) : Node → List String
  | .filter f => if f.id = id then [] else [f.id]
  | .group h cs => if h.id = id then [] else h.id :: Forest.idsOutside id cs

def Forest.idsOutside (id : String) : Forest → List String
  | [] => []
  | c :: cs => Node.idsOutside id c ++ Forest.idsOutside id cs

end

theorem Node.substitute_self (n new : Node) : n.substitute n.id new = new := by
  cases n with
  | group h cs => exact (Node.substitute.eq_2 ..).trans (if_pos rfl)
  | filter f => exact (Node.substitute.eq_1 ..).trans (if_pos rfl)

theorem Node.idsOutside_self (n : Node) : n.idsOutside n.id = [] := by
  cases n with
  | group h cs => exact (Node.idsOutside.eq_2 ..).trans (if_pos rfl)
  | filter f => exact (Node.idsOutside.eq_1 ..).trans (if_pos rfl)

namespace Forest

variable (id : String) (new : Node)

theorem substitute_append (as bs : Forest) :
    Forest.substitute (as ++ bs) id new =
      Forest.substitute as id new ++ Forest.substitute bs id new := by
  induction as with
  | nil => rfl
  | cons a as ih => rw [List.cons_append, substitute, substitute, ih, List.cons_append]

theorem idsOutside_append (as bs : Forest) :
    Forest.idsOutside id (as ++ bs) = Forest.idsOutside id as ++ Forest.idsOutside id bs := by
  induction as with
  | nil => rfl
  | cons a as ih => rw [List.cons_append, idsOutside, idsOutside, ih, List.append_assoc]

end Forest

mutual

theorem Node.substitute_of_not_mem {id : String} {new : Node} : {n : Node} → id ∉ n.ids →
    n.substitute id new = n
  | .filter f, absent => by
    rw [Node.ids_filter, List.mem_singleton] at absent
    rw [Node.substitute, if_neg (Ne.symm absent)]
  | .group h cs, absent => by
    rw [Node.ids_group, List.mem_cons, not_or] at absent
    rw [Node.substitute, if_neg (Ne.symm absent.1), Forest.substitute_of_not_mem absent.2]

theorem Forest.substitute_of_not_mem {id : String} {new : Node} : {cs : Forest} →
    id ∉ Forest.ids cs → Forest.substitute cs id new = cs
  | [], _ => rfl
  | c :: cs, absent => by
    rw [Forest.ids_cons, List.mem_append, not_or] at absent
    rw [Forest.substitute, Node.substitute_of_not_mem absent.1, Forest.substitute_of_not_mem absent.2]

end

mutual

theorem Node.idsOutside_of_not_mem {id : String} : {n : Node} → id ∉ n.ids →
    n.idsOutside id = n.ids
  | .filter f, absent => by
    rw [Node.ids_filter, List.mem_singleton] at absent
    rw [Node.idsOutside, if_neg (Ne.symm absent), Node.ids_filter]
  | .group h cs, absent => by
    rw [Node.ids_group, List.mem_cons, not_or] at absent
    rw [Node.idsOutside, if_neg (Ne.symm absent.1), Forest.idsOutside_of_not_mem absent.2,
      Node.ids_group]

theorem Forest.idsOutside_of_not_mem {id : String} : {cs : Forest} → id ∉ Forest.ids cs →
    Forest.idsOutside id cs = Forest.ids cs
  | [], _ => rfl
  | c :: cs, absent => by
    rw [Forest.ids_cons, List.mem_append, not_or] at absent
    rw [Forest.idsOutside, Node.idsOutside_of_not_mem absent.1, Forest.idsOutside_of_not_mem absent.2,
      Forest.ids_cons]

end

theorem Node.mem_ids_of_place? {id : String} {n : Node} {p : Place} (found : n.place? id = some p) :
    id ∈ Forest.ids n.children := by
  have hit := Node.place?_eq_find? id n
  rw [found, Option.map_some] at hit
  have same : p.node.id = id := by simpa using List.find?_some hit.symm
  exact List.mem_map.mpr ⟨p.node, List.mem_of_find?_eq_some hit.symm, same⟩

theorem Node.place?_eq_none {id : String} {n : Node} (absent : id ∉ Forest.ids n.children) :
    n.place? id = none := by
  by_contra other
  obtain ⟨p, found⟩ := Option.ne_none_iff_exists'.mp other
  exact absent (mem_ids_of_place? found)

theorem Forest.place?_append {id : String} {h : Header} {before passed cs : Forest}
    (absent : id ∉ Forest.ids passed) :
    Forest.place? id h before (passed ++ cs) = Forest.place? id h (before ++ passed) cs := by
  induction passed generalizing before with
  | nil => rw [List.nil_append, List.append_nil]
  | cons c passed ih =>
    rw [ids_cons, Node.ids_eq, List.mem_append, List.mem_cons, not_or, not_or] at absent
    obtain ⟨⟨other, notBelow⟩, later⟩ := absent
    rw [List.cons_append, Forest.place?, if_neg (Ne.symm other), Node.place?_eq_none notBelow]
    dsimp only
    rw [ih later, List.append_assoc, List.singleton_append]

namespace Frame

theorem place?_fill {fr : Frame} {id : String} (n : Node) (absent : id ∉ Forest.ids fr.before) :
    (fr.fill n).toNode.place? id = Forest.place? id fr.header fr.before (n :: fr.after) := by
  rw [fill, Group.toNode, Node.place?, Forest.place?_append absent, List.nil_append]

theorem place?_around {outer : List Frame} {fr : Frame} {n : Node}
    (distinct : (around (outer ++ [fr]) n).ids.Nodup) :
    (around (outer ++ [fr]) n).place? n.id = some ⟨outer, fr, n⟩ := by
  induction outer with
  | nil =>
    obtain ⟨-, notBefore, -⟩ := (nodup_around_cons distinct).2 n.id n.id_mem_ids
    rw [List.nil_append, around, around, place?_fill n notBefore, Forest.place?, if_pos rfl]
  | cons top outer ih =>
    obtain ⟨kept, apart⟩ := nodup_around_cons distinct
    obtain ⟨-, notBefore, -⟩ := apart n.id (mem_ids_around n.id_mem_ids)
    have below := Node.mem_ids_of_place? (ih kept)
    rw [Node.ids_eq, List.nodup_cons] at kept
    have other : (around (outer ++ [fr]) n).id ≠ n.id := fun same => kept.1 (same ▸ below)
    rw [List.cons_append, around, place?_fill _ notBefore, Forest.place?, if_neg other,
      ih (nodup_around_cons distinct).1]
    rfl

theorem locate?_around {outer : List Frame} {fr : Frame} {n : Node}
    (distinct : (around (outer ++ [fr]) n).ids.Nodup) :
    (around (outer ++ [fr]) n).locate? n.id = some (.inside ⟨outer, fr, n⟩) := by
  have found := place?_around distinct
  have below := Node.mem_ids_of_place? found
  rw [Node.ids_eq, List.nodup_cons] at distinct
  have notTop : (around (outer ++ [fr]) n).id ≠ n.id := fun same => distinct.1 (same ▸ below)
  rw [Node.locate?, if_neg notTop, found, Option.map_some]

theorem position?_fill {fr : Frame} {n : Node} (distinct : (fr.fill n).toNode.ids.Nodup) :
    (fr.fill n).position? n.id = some fr.before.length := by
  have kept : (around [fr] n).ids.Nodup := distinct
  obtain ⟨-, notBefore, -⟩ := (nodup_around_cons kept).2 n.id n.id_mem_ids
  have passed : fr.before.findIdx? (·.id = n.id) = none := by
    rw [List.findIdx?_eq_none_iff]
    intro c member
    have known : c.id ∈ Forest.ids fr.before :=
      List.mem_map_of_mem (Forest.mem_preorder_iff.mpr ⟨c, member, c.mem_preorder_self⟩)
    exact decide_eq_false fun same => notBefore (same ▸ known)
  rw [Group.position?, fill, List.findIdx?_append, passed]
  simp [List.findIdx?_cons]

theorem close_eq_eraseIdx (fr : Frame) (n : Node) :
    fr.close = { fr.fill n with children := (fr.fill n).children.eraseIdx fr.before.length } := by
  rw [close, fill, List.eraseIdx_append_of_length_le (Nat.le_refl _), Nat.sub_self, List.eraseIdx_cons_zero]

theorem substitute_around {frames : List Frame} {old : Node} (new : Node)
    (distinct : (around frames old).ids.Nodup) :
    (around frames old).substitute old.id new = around frames new := by
  induction frames with
  | nil => exact old.substitute_self new
  | cons fr inner ih =>
    obtain ⟨kept, apart⟩ := nodup_around_cons distinct
    obtain ⟨notTop, notBefore, notAfter⟩ := apart old.id (mem_ids_around old.id_mem_ids)
    rw [around, around, fill, Group.toNode, Node.substitute, if_neg notTop, Forest.substitute_append,
      Forest.substitute, ih kept, Forest.substitute_of_not_mem notBefore,
      Forest.substitute_of_not_mem notAfter]
    rfl

theorem ids_fill (fr : Frame) (n : Node) : (fr.fill n).toNode.ids =
    fr.header.id :: (Forest.ids fr.before ++ (n.ids ++ Forest.ids fr.after)) := by
  rw [fill, Group.toNode, Node.ids_group, Forest.ids_append, Forest.ids_cons]

/-- The ids of a tree are those before a gap, those in it and those after it, whatever stands in the
    gap under the same id. -/
theorem exists_ids_around {frames : List Frame} {old : Node}
    (distinct : (around frames old).ids.Nodup) :
    ∃ before after, (around frames old).idsOutside old.id = before ++ after ∧
      ∀ new : Node, new.id = old.id → (around frames new).ids = before ++ new.ids ++ after := by
  induction frames with
  | nil => exact ⟨[], [], old.idsOutside_self, fun new _ => by simp [around]⟩
  | cons fr inner ih =>
    obtain ⟨kept, apart⟩ := nodup_around_cons distinct
    obtain ⟨notTop, notBefore, notAfter⟩ := apart old.id (mem_ids_around old.id_mem_ids)
    obtain ⟨before, after, outside, split⟩ := ih kept
    refine ⟨fr.header.id :: Forest.ids fr.before ++ before, after ++ Forest.ids fr.after, ?_, ?_⟩
    · rw [around, fill, Group.toNode, Node.idsOutside, if_neg notTop, Forest.idsOutside_append,
        Forest.idsOutside, outside, Forest.idsOutside_of_not_mem notBefore,
        Forest.idsOutside_of_not_mem notAfter]
      simp
    · intro new same
      rw [around, ids_fill, split new same]
      simp

end Frame

end NestedRules
