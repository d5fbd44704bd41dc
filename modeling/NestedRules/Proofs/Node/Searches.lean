import Mathlib.Data.List.Chain
import Mathlib.Data.List.Infix
import NestedRules.Proofs.Node.Gap
import NestedRules.Proofs.Node.Occurrence

namespace NestedRules

namespace Frame

/-- The groups on the way down to the gap of the innermost frame, each with the next one in its gap. -/
def above : List Frame → Node → List Node
  | [], _ => []
  | fr :: inner, n => around (fr :: inner) n :: above inner n

def address (frames : List Frame) : List Nat := frames.map fun fr => fr.before.length

variable {frames inner : List Frame} {fr : Frame} {n : Node}

theorem above_append (outer inner : List Frame) (n : Node) :
    above (outer ++ inner) n = above outer (around inner n) ++ above inner n := by
  induction outer with
  | nil => rfl
  | cons fr outer ih =>
    rw [List.cons_append, above, above, around, around, ih, around_append, List.cons_append]

theorem length_above (frames : List Frame) (n : Node) : (above frames n).length = frames.length := by
  induction frames with
  | nil => rfl
  | cons fr inner ih => rw [above, List.length_cons, List.length_cons, ih]

theorem head?_above (frames : List Frame) (n : Node) :
    (above frames n ++ [n]).head? = some (around frames n) := by
  cases frames <;> rfl

theorem children_around_cons :
    (around (fr :: inner) n).children = fr.before ++ around inner n :: fr.after := rfl

theorem isChain_above (frames : List Frame) (n : Node) :
    (above frames n ++ [n]).IsChain fun outer member => member ∈ outer.children := by
  induction frames with
  | nil => exact .singleton n
  | cons fr inner ih =>
    rw [above, List.cons_append, List.isChain_cons, head?_above]
    refine ⟨?_, ih⟩
    rintro _ ⟨⟩
    rw [children_around_cons]
    exact List.mem_append_right _ List.mem_cons_self

theorem descend?_around_cons (below : List Nat) :
    (around (fr :: inner) n).descend? (fr.before.length :: below) =
      (around inner n).descend? below := by
  rw [Node.descend?, children_around_cons, List.getElem?_append_right (Nat.le_refl _), Nat.sub_self]
  rfl

theorem map_descend?_inits (frames : List Frame) (n : Node) :
    (address frames).inits.map (around frames n).descend? = (above frames n ++ [n]).map some := by
  induction frames with
  | nil => rfl
  | cons fr inner ih =>
    rw [address, List.map_cons, List.inits_cons, List.map_cons, List.map_map, above, List.cons_append,
      List.map_cons, ← ih]
    exact congrArg _ (List.map_congr_left fun below _ => descend?_around_cons below)

end Frame

namespace Place

def path (p : Place) : Path := ⟨Frame.above p.frames p.node, p.node⟩

def occurrence (p : Place) : Occurrence := ⟨Frame.address p.frames, p.node⟩

end Place

namespace Location

def frames : Location → List Frame
  | root _ => []
  | inside p => p.frames

def path (l : Location) : Path := ⟨Frame.above l.frames l.node, l.node⟩

def occurrence (l : Location) : Occurrence := ⟨Frame.address l.frames, l.node⟩

end Location

section

variable (id : String)

theorem Node.path?_of_id {n : Node} (hit : n.id = id) : n.path? id = some (.root n) := by
  cases n <;> exact if_pos hit

mutual

theorem Node.path?_eq_place? : (n : Node) → n.id ≠ id →
    n.path? id = (n.place? id).map Place.path
  | .filter _, other => if_neg other
  | .group h cs, other => by
    have notTop : h.id ≠ id := other
    rw [Node.path?, if_neg notTop]
    exact Forest.path?_eq_place? h [] cs

theorem Forest.path?_eq_place? (h : Header) (before : Forest) : (cs : Forest) →
    (Forest.path? id cs).map (.under (.group h (before ++ cs))) =
      (Forest.place? id h before cs).map Place.path
  | [] => rfl
  | c :: cs => by
    rw [Forest.path?, Forest.place?]
    -- The path gets the group on the way back, the place has it from the start.
    by_cases hit : c.id = id
    · rw [if_pos hit, Node.path?_of_id id hit]
      rfl
    · rw [if_neg hit, Node.path?_eq_place? c hit]
      cases found : c.place? id with
      | none =>
        have later := Forest.path?_eq_place? h (before ++ [c]) cs
        rwa [List.append_assoc, List.singleton_append] at later
      | some p =>
        have rebuilt := (Node.around_of_place? c found).1
        simp only [Option.map_some]
        rw [Place.path, Place.path, Place.frames_under, Frame.above, Frame.around, Place.node_under,
          rebuilt]
        rfl

end

theorem Node.find?_occurrences_eq (n : Node) :
    n.occurrences.find? (·.node.id = id) =
      if n.id = id then some ⟨[], n⟩
      else (Forest.occurrences 0 n.children).find? (·.node.id = id) := by
  rw [n.occurrences_eq, List.find?_cons]
  by_cases hit : n.id = id <;> simp [hit]

mutual

theorem Node.find?_occurrences_below : (n : Node) →
    (Forest.occurrences 0 n.children).find? (·.node.id = id) = (n.place? id).map Place.occurrence
  | .filter _ => rfl
  | .group h cs => Forest.find?_occurrences h [] cs

theorem Forest.find?_occurrences (h : Header) (before : Forest) : (cs : Forest) →
    (Forest.occurrences before.length cs).find? (·.node.id = id) =
      (Forest.place? id h before cs).map Place.occurrence
  | [] => rfl
  | c :: cs => by
    have below := Node.find?_occurrences_below c
    -- Positions go on from the number of the members that the search for a place has passed.
    have later := Forest.find?_occurrences h (before ++ [c]) cs
    rw [List.length_append, List.length_singleton] at later
    have lifted : (fun o : Occurrence => decide (o.node.id = id)) ∘ .under before.length =
        fun o => decide (o.node.id = id) := rfl
    rw [Forest.occurrences, Forest.place?, List.find?_append, List.find?_map, lifted,
      Node.find?_occurrences_eq, below, later]
    by_cases hit : c.id = id
    · rw [if_pos hit, if_pos hit]
      rfl
    · rw [if_neg hit, if_neg hit]
      cases c.place? id <;> rfl

end

theorem Node.path?_eq_locate? (n : Node) : n.path? id = (n.locate? id).map Location.path := by
  rw [locate?]
  by_cases hit : n.id = id
  · rw [if_pos hit, path?_of_id id hit]
    rfl
  · rw [if_neg hit, path?_eq_place? id n hit, Option.map_map]
    rfl

theorem Node.find?_occurrences (n : Node) :
    n.occurrences.find? (·.node.id = id) = (n.locate? id).map Location.occurrence := by
  rw [locate?, find?_occurrences_eq]
  by_cases hit : n.id = id
  · rw [if_pos hit, if_pos hit]
    rfl
  · rw [if_neg hit, if_neg hit, find?_occurrences_below, Option.map_map]
    rfl

end

section

variable {n : Node} {id : String} {l : Location}

theorem Node.around_of_locate? (found : n.locate? id = some l) :
    Frame.around l.frames l.node = n ∧ l.node.id = id := by
  unfold locate? at found
  split at found
  · rename_i top
    cases found
    exact ⟨rfl, top⟩
  · obtain ⟨p, placed, rfl⟩ := Option.map_eq_some_iff.mp found
    exact around_of_place? n placed

theorem Node.parent?_eq_none_iff (found : n.locate? id = some l) :
    l.parent? = none ↔ n.id = id := by
  unfold locate? at found
  split at found
  · rename_i top
    cases found
    exact iff_of_true rfl top
  · rename_i other
    obtain ⟨p, -, rfl⟩ := Option.map_eq_some_iff.mp found
    exact iff_of_false nofun other

theorem Location.depth_eq_length (l : Location) : l.depth = l.frames.length := by
  cases l with
  | root n => rfl
  | inside p => simp [depth, Place.depth, frames, Place.frames]

theorem Location.map_toNode_parent? (l : Location) :
    l.parent?.map Group.toNode = (Frame.above l.frames l.node).getLast? := by
  cases l with
  | root n => rfl
  | inside p =>
    rw [frames, node, Place.frames, Frame.above_append]
    exact List.getLast?_concat.symm

theorem Location.getElem?_children_parent {g : Group} (within : l.parent? = some g) :
    ∃ i, l.index? = some i ∧ g.children[i]? = some l.node := by
  cases l with
  | root n => cases within
  | inside p =>
    cases within
    refine ⟨p.frame.before.length, rfl, ?_⟩
    rw [Place.parent, Frame.fill, List.getElem?_append_right (Nat.le_refl _), Nat.sub_self]
    rfl

theorem Frame.path?_around {frames : List Frame} (distinct : (around frames n).ids.Nodup) :
    (around frames n).path? n.id = some ⟨above frames n, n⟩ := by
  rcases List.eq_nil_or_concat frames with rfl | ⟨outer, fr, rfl⟩
  · exact Node.path?_of_id n.id rfl
  · rw [List.concat_eq_append] at distinct ⊢
    rw [Node.path?_eq_locate?, locate?_around distinct]
    rfl

/-- Where no id occurs twice, the path to the parent of a node ends one node earlier, and the node is
    the parent's only member with its id. -/
theorem Node.parent_of_nodup (distinct : n.ids.Nodup) (found : n.locate? id = some l) {g : Group}
    (within : l.parent? = some g) :
    (n.path? g.id).map Path.nodes = some (Frame.above l.frames l.node) ∧
      l.index? = g.position? id := by
  obtain ⟨rebuilt, same⟩ := around_of_locate? found
  cases l with
  | root m => cases within
  | inside p =>
    cases within
    obtain ⟨outer, fr, m⟩ := p
    simp only [Location.frames, Place.frames, Location.node, Place.parent] at rebuilt same ⊢
    rw [Frame.around_append] at rebuilt
    subst rebuilt same
    constructor
    · rw [Frame.above_append]
      exact congrArg (Option.map Path.nodes) (Frame.path?_around distinct)
    · exact (Frame.position?_fill (Frame.nodup_of_around distinct)).symm

end

/-- What the path, the location and the occurrence tell of the first node in pre-order that carries the
    id.
    - `first`, `located`, `occurs`: all three come to that node;
    - `starts`, `descends`: the path leads from the root from member to member;
    - `address`: its nodes stand at the beginnings of the address;
    - `depth`, `parent`, `child`: the location has the depth of the path and, except at the root, the
      node before the last as its parent, in which the node stands at the index;
    - `ancestors`: they are the ids of the path, from the node up;
    - `unique`: without repeats the parent is found on the same way, and the node in it by its id. -/
structure Node.Reported (root : Node) (id : String) (p : Path) (l : Location) (o : Occurrence) :
    Prop where
  first : root.nodes.find? (·.id = id) = some p.target
  located : l.node = p.target
  occurs : root.occurrences.find? (·.node.id = id) = some o ∧ o.node = p.target
  starts : p.nodes.head? = some root
  descends : p.nodes.IsChain fun outer member => member ∈ outer.children
  address : o.address.inits.map root.descend? = p.nodes.map some
  depth : l.depth = p.length - 1
  parent : l.parent?.map Group.toNode = p.parent?
  top : l.parent? = none ↔ root.id = id
  child : ∀ g, l.parent? = some g → ∃ i, l.index? = some i ∧ g.children[i]? = some l.node
  ancestors : root.ancestors? id = some p.ids.reverse
  unique : root.ids.Nodup → ∀ g, l.parent? = some g →
    (root.path? g.id).map Path.nodes = some p.nodes.dropLast ∧ l.index? = g.position? id

theorem Node.reported_of_locate? {root : Node} {id : String} {l : Location}
    (found : root.locate? id = some l) : root.Reported id l.path l l.occurrence := by
  obtain ⟨rebuilt, same⟩ := around_of_locate? found
  have path : root.path? id = some l.path := by rw [path?_eq_locate?, found, Option.map_some]
  have occurs : root.occurrences.find? (·.node.id = id) = some l.occurrence := by
    rw [find?_occurrences, found, Option.map_some]
  have first : root.nodes.find? (·.id = id) = some l.path.target := by
    rw [nodes_eq_preorder, ← path?_eq_find?, path, Option.map_some]
  refine ⟨first, rfl, ⟨occurs, rfl⟩, ?_, Frame.isChain_above .., ?_, ?_, l.map_toNode_parent?,
    parent?_eq_none_iff found, fun g => l.getElem?_children_parent, ?_, fun distinct g within => ?_⟩
  · exact (Frame.head?_above ..).trans (congrArg some rebuilt)
  · rw [← rebuilt]
    exact Frame.map_descend?_inits ..
  · rw [l.depth_eq_length, ← Frame.length_above l.frames l.node]
    rfl
  · rw [ancestors?, path, Option.map_some]
  · rw [show l.path.nodes.dropLast = Frame.above l.frames l.node from List.dropLast_concat]
    exact parent_of_nodup distinct found within

/-- Every search finds an id if and only if a node of the tree carries it, and all that are found come
    to the same occurrence. -/
theorem Node.searches_agree (root : Node) (id : String) :
    (id ∉ root.ids →
        root.path? id = none ∧ root.locate? id = none ∧ root.ancestors? id = none) ∧
      (id ∈ root.ids → ∃ p l o, root.path? id = some p ∧ root.locate? id = some l ∧
        root.Reported id p l o) := by
  have unknown : root.locate? id = none ↔ id ∉ root.ids := by
    rw [← path?_eq_none_iff, path?_eq_locate?, Option.map_eq_none_iff]
  constructor
  · intro absent
    have noPath := path?_eq_none_iff.mpr absent
    exact ⟨noPath, unknown.mpr absent, by rw [ancestors?, noPath, Option.map_none]⟩
  · intro known
    obtain ⟨l, found⟩ := Option.ne_none_iff_exists'.mp (mt unknown.mp (not_not.mpr known))
    exact ⟨l.path, l, l.occurrence, by rw [path?_eq_locate?, found, Option.map_some], found,
      reported_of_locate? found⟩

def Node.repeated : Node :=
  .group ⟨"root", "Rule", .and, false, false, false⟩
    [.group ⟨"g", "Group", .or, false, false, false⟩ [.filter (.blank "a")],
      .filter (.enabled "a" .name .equals "1")]

/-- The filter further down is the first in pre-order. -/
theorem Node.searches_agree_repeated :
    "a" ∈ repeated.ids ∧ ∃ p l o, repeated.path? "a" = some p ∧ repeated.locate? "a" = some l ∧
      repeated.Reported "a" p l o ∧ p.ids = ["root", "g", "a"] ∧ l.depth = 2 ∧ o.address = [0, 0] := by
  have known : "a" ∈ repeated.ids := by
    simp [repeated, ids_group, ids_filter, Filter.blank, Filter.enabled]
  obtain ⟨p, l, o, path, location, reported⟩ := (searches_agree repeated "a").2 known
  have ids : p.ids = ["root", "g", "a"] := by
    cases path
    rfl
  have depth : l.depth = 2 := by
    cases location
    rfl
  have address : o.address = [0, 0] := by
    have first := reported.occurs.1
    cases first
    rfl
  exact ⟨known, p, l, o, path, location, reported, ids, depth, address⟩

end NestedRules
