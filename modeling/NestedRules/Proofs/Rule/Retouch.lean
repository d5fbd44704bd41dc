import NestedRules.Proofs.Node.Relabel
import NestedRules.Proofs.Rule.Reversal

namespace NestedRules

namespace Relabel

variable (l : Relabel) (r : Rule) {id source dest : String}

def rule : Rule := ⟨l.group r.root⟩

def location : Location → Location
  | .root n => .root (l.node n)
  | .inside p => .inside (l.place p)

def focus : Focus → Focus
  | .group around g => .group (around.map l.frame) (l.group g)
  | .filter p f => .filter (l.place p) (l.filter f)

theorem node_rule : (l.rule r).node = l.node r.node := rfl

theorem ids_rule : (l.rule r).ids = r.ids := by
  rw [Rule.ids, node_rule, ids_node, Rule.ids]

theorem ancestors?_rule (id : String) : (l.rule r).ancestors? id = r.ancestors? id := by
  simp [Rule.ancestors?, Node.ancestors?, node_rule, path?_node, Function.comp_def, ids_path]

theorem locate?_rule (id : String) : (l.rule r).locate? id = (r.locate? id).map l.location := by
  rw [Rule.locate?, Rule.locate?, node_rule, Node.locate?, Node.locate?, id_node, place?_node]
  split
  · rfl
  · simp [Function.comp_def, location]

theorem focus_place (p : Place) : (l.place p).focus = l.focus p.focus := by
  unfold Place.focus
  cases kind : p.node with
  | group h cs => simp [place, kind, node, focus, group]
  | filter f => simp [place, kind, node, focus]

theorem focus?_rule (id : String) : (l.rule r).focus? id = (r.focus? id).map l.focus := by
  have top : (l.rule r).root.id = r.root.id := l.id_header _
  rw [Rule.focus?, Rule.focus?, node_rule, place?_node, top]
  split
  · rfl
  · simp [Function.comp_def, focus_place]

theorem attach_rule (parent : String) (n : Node) (index : Option Nat) :
    (l.rule r).attach parent (l.node n) index = (r.attach parent n index).map l.rule := by
  rw [Rule.attach, Rule.attach, focus?_rule]
  cases r.focus? parent with
  | none => rfl
  | some focus =>
    cases focus with
    | filter p f => rfl
    | group around g =>
      have last : (l.group g).children.length = g.children.length := by
        simp [group, forest_eq_map]
      simp only [Option.map_some, focus, Except.map, last, rule, group_wrap, group_insert]

theorem insert_rule {parent : String} {n : Node} {index : Option Nat}
    (kept : firstRepeat? r.ids n.ids = none → l.node n = n) :
    (l.rule r).insert parent n index = (r.insert parent n index).map l.rule := by
  rw [Rule.insert, Rule.insert, ids_rule]
  cases clash : firstRepeat? r.ids n.ids with
  | some taken => rfl
  | none =>
    have attached := l.attach_rule r parent n index
    rwa [kept clash] at attached

theorem remove_rule (id : String) : (l.rule r).remove id = (r.remove id).map l.rule := by
  rw [Rule.remove, Rule.remove, locate?_rule]
  cases r.locate? id with
  | none => rfl
  | some location =>
    cases location with
    | root n => rfl
    | inside p => simp only [Option.map_some, location, Except.map, rule, group_without]

theorem move_rule (source dest : String) (index : Nat) :
    (l.rule r).move source dest index = (r.move source dest index).map l.rule := by
  rw [Rule.move, Rule.move, locate?_rule, locate?_rule, ancestors?_rule]
  cases r.locate? source with
  | none => rfl
  | some location =>
    cases r.locate? dest with
    | none => rfl
    | some target =>
      cases location with
      | root n => rfl
      | inside p =>
        have place : l.location (.inside p) = .inside (l.place p) := rfl
        have kind : (l.location target).node.isGroup = target.node.isGroup := by
          cases target <;> exact l.isGroup_node _
        have parent : (l.place p).parent.id = p.parent.id := by
          rw [parent_place]
          exact l.id_header _
        have detached : (⟨(l.place p).without⟩ : Rule) = l.rule ⟨p.without⟩ := by
          rw [rule, group_without]
        have carried : (l.place p).node = l.node p.node := rfl
        simp only [Option.map_some, place, kind, parent, detached, carried, isGroup_node,
          index_place, attach_rule]
        split
        · rfl
        · split <;> rfl

/-- The attributes of `m` for the node that has its id and its kind. -/
def assign (m : Node) : Relabel where
  header h :=
    match m with
    | .group k _ => if h.id = k.id then k else h
    | .filter _ => h
  filter f :=
    match m with
    | .group _ _ => f
    | .filter k => if f.id = k.id then k else f
  id_header h := by
    cases m with
    | group k cs =>
      dsimp only
      split
      · rename_i same
        exact same.symm
      · rfl
    | filter k => rfl
  id_filter f := by
    cases m with
    | group k cs => rfl
    | filter k =>
      dsimp only
      split
      · rename_i same
        exact same.symm
      · rfl

section

variable {m n : Node} {x : String}

theorem leaves_assign (other : x ≠ m.id) : (assign m).Leaves x := by
  constructor
  · rintro h rfl
    cases m with
    | group k cs => exact if_neg other
    | filter k => rfl
  · rintro f rfl
    cases m with
    | group k cs => rfl
    | filter k => exact if_neg other

theorem bare_node (l : Relabel) (n : Node) : (l.node n).bare = (l.own n).bare := by
  cases n <;> rfl

theorem bare_own_assign (sameId : m.id = n.id) (sameKind : m.kind = n.kind) :
    ((assign m).own n).bare = m.bare := by
  cases m with
  | group k cs =>
    cases n with
    | group h ds => exact congrArg (Node.group · []) (if_pos sameId.symm)
    | filter f => cases sameKind
  | filter k =>
    cases n with
    | group h ds => cases sameKind
    | filter f => exact congrArg Node.filter (if_pos sameId.symm)

theorem own_assign (sameId : m.id = n.id) (sameKind : m.kind = n.kind)
    (members : m.children = n.children) : (assign m).own n = m :=
  Node.eq_of_bare (bare_own_assign sameId sameKind) ((children_own _ n).trans members.symm)

theorem assign_congr (same : m.bare = n.bare) : assign m = assign n := by
  cases m with
  | group k cs =>
    cases n with
    | group h ds =>
      obtain rfl : k = h := (Node.group.inj same).1
      rfl
    | filter f => cases same
  | filter k =>
    cases n with
    | group h ds => cases same
    | filter f =>
      obtain rfl : k = f := Node.filter.inj same
      rfl

end

theorem node?_rule (id : String) : (l.rule r).node? id = (r.node? id).map l.node := by
  rw [Rule.node?, Rule.node?, locate?_rule, Option.map_map, Option.map_map]
  refine congrArg (Option.map · _) (funext fun location => ?_)
  cases location <;> rfl

theorem node_assign {frames : List Frame} {m n : Node} (valid : r.Valid)
    (rebuilt : Frame.around frames n = r.node) (sameId : m.id = n.id) (sameKind : m.kind = n.kind)
    (members : m.children = n.children) :
    ((assign m).rule r).node = Frame.around frames m := by
  rw [Rule.Valid, Rule.ids, ← rebuilt] at valid
  rw [node_rule, ← rebuilt, node_around valid fun _ other => leaves_assign (sameId ▸ other),
    own_assign sameId sameKind members]

theorem assign_rule_eq_iff {l m n : Node} (found : r.node? id = some n) (sameId : l.id = n.id)
    (sameKind : l.kind = n.kind) (sameId' : m.id = n.id) (sameKind' : m.kind = n.kind) :
    (assign l).rule r = (assign m).rule r ↔ l.bare = m.bare := by
  constructor
  · intro same
    have labelled := congrArg (Rule.node? · id) same
    simp only [node?_rule, found, Option.map_some, Option.some.injEq] at labelled
    have own := congrArg Node.bare labelled
    rwa [bare_node, bare_node, bare_own_assign sameId sameKind,
      bare_own_assign sameId' sameKind'] at own
  · intro same
    rw [assign_congr same]

end Relabel

/-- A change of the attributes of one node. It may look at all that is below a group, and leaves it as
    it is. -/
inductive Retouch
  | group (change : Group → Header)
  | filter (change : Filter → Filter)

namespace Retouch

def kind : Retouch → Kind
  | group _ => .group
  | filter _ => .filter

def edit (id : String) : Retouch → Edit
  | group change => .updateGroup id fun g => ⟨change g, g.children⟩
  | filter change => .updateFilter id change

/-- What becomes of a node, which keeps its id. -/
def onNode : Retouch → Node → Node
  | group change, .group h cs => .group { change ⟨h, cs⟩ with id := h.id } cs
  | filter change, .filter f => .filter { change f with id := f.id }
  | _, n => n

/-- The change goes by the attributes alone. -/
def Blind : Retouch → Prop
  | group change => ∀ h cs ds, change ⟨h, cs⟩ = change ⟨h, ds⟩
  | filter _ => True

variable {c : Retouch} {r : Rule} {id : String} {m n : Node}

theorem id_onNode (c : Retouch) (n : Node) : (c.onNode n).id = n.id := by
  cases c <;> cases n <;> rfl

theorem kind_onNode (c : Retouch) (n : Node) : (c.onNode n).kind = n.kind := by
  cases c <;> cases n <;> rfl

theorem children_onNode (c : Retouch) (n : Node) : (c.onNode n).children = n.children := by
  cases c <;> cases n <;> rfl

theorem Blind.bare_onNode (blind : c.Blind) (same : m.bare = n.bare) :
    (c.onNode m).bare = (c.onNode n).bare := by
  cases m with
  | group h cs =>
    cases n with
    | filter f => cases same
    | group k ds =>
      obtain rfl : h = k := (Node.group.inj same).1
      cases c with
      | filter change => rfl
      | group change => simp only [onNode, Node.bare, blind h cs ds]
  | filter f =>
    cases n with
    | group k ds => cases same
    | filter g =>
      obtain rfl : f = g := Node.filter.inj same
      rfl

theorem apply_edit (valid : r.Valid) (found : r.node? id = some n) (kind : n.kind = c.kind) :
    r.apply (c.edit id) = .ok ((Relabel.assign (c.onNode n)).rule r) := by
  obtain rfl : n.id = id := (valid.node?_eq_some_iff.mp found).2
  cases c with
  | group change =>
    cases n with
    | filter f => cases kind
    | group h cs =>
      obtain ⟨frames, rebuilt, accepted⟩ := valid.updateGroup_of_group found
        (f := fun g => ⟨change g, g.children⟩) fun _ => rfl
      have whole := Relabel.node_assign r valid rebuilt (id_onNode (group change) _)
        (kind_onNode (group change) _) (children_onNode (group change) _)
      rw [edit, Rule.apply, accepted]
      apply congrArg Except.ok
      apply Rule.eq_of_node
      rw [whole, Rule.node, Frame.toNode_wrap]
      rfl
  | filter change =>
    cases n with
    | group h cs => cases kind
    | filter f =>
      obtain ⟨p, located, same, accepted⟩ := valid.updateFilter_of_filter found change
      have rebuilt := (Rule.around_of_locate?_inside located).1
      rw [same] at rebuilt
      have whole := Relabel.node_assign r valid rebuilt (id_onNode (filter change) _)
        (kind_onNode (filter change) _) (children_onNode (filter change) _)
      rw [edit, Rule.apply, accepted]
      apply congrArg Except.ok
      apply Rule.eq_of_node
      rw [whole, Rule.node, Place.toNode_put]
      rfl

end Retouch

namespace Rule

variable {c : Retouch} {r r' : Rule} {e : Edit} {n : Node} {id source dest : String} {index : Nat}

/-- The edit adds, takes away or moves nodes, and the node `id` is not among those taken away. -/
def Rearranges (r : Rule) (id : String) : Edit → Prop
  | .insert .. | .move .. => True
  | .remove removed => id ∉ r.subtreeIds removed
  | .updateGroup .. | .updateFilter .. => False

theorem Rearranges.apply_rule (rearranges : r.Rearranges id e) (known : id ∈ r.ids) {l : Relabel}
    (leaves : ∀ x, x ≠ id → l.Leaves x) : (l.rule r).apply e = (r.apply e).map l.rule := by
  cases e with
  | updateGroup target f => exact rearranges.elim
  | updateFilter target f => exact rearranges.elim
  | insert parent n index =>
    -- What is put in has new ids, and so has nothing to do with the node `id`.
    apply Relabel.insert_rule
    intro free
    apply Relabel.node_of_leaves
    intro x inside
    apply leaves
    rintro rfl
    exact (firstRepeat?_eq_none_iff.mp free).2 x inside known
  | remove removed => exact l.remove_rule r removed
  | move source dest index => exact l.move_rule r source dest index

theorem Rearranges.own?_eq (rearranges : r.Rearranges id e) (valid : r.Valid) (known : id ∈ r.ids)
    (accepted : r.apply e = .ok r') : r'.own? id = r.own? id := by
  cases e with
  | updateGroup target f => exact rearranges.elim
  | updateFilter target f => exact rearranges.elim
  | insert parent n index =>
    rw [own?_eq, own?_eq, valid.row?_insert accepted known, Option.map_map]
    simp [Function.comp_def]
  | remove removed =>
    have ⟨p, found, gone⟩ := remove_cases accepted
    have outside : id ∉ p.node.ids := subtreeIds_of_locate? found ▸ rearranges
    rw [(ids_without valid found).mem_iff, List.mem_append, or_iff_left outside, ← gone] at known
    rw [own?_eq, own?_eq, valid.row?_remove accepted known, Option.map_map]
    rfl
  | move source dest index => exact valid.own?_move accepted id

theorem Valid.node?_move (valid : r.Valid) (accepted : r.move source dest index = .ok r') :
    r'.node? source = r.node? source := by
  obtain ⟨p, target, found, -, -, -, attached⟩ := move_cases accepted
  obtain ⟨q, g, found', carried, -⟩ :=
    (valid.detached found).exists_place_of_attach (valid.move accepted).1 attached
  rw [(around_of_locate?_inside found).2] at found'
  rw [node?_of_locate? found, node?_of_locate? found']
  exact congrArg some carried

theorem Valid.node?_below (valid : r.Valid) {m n : Node} (found : r.node? id = some n)
    (below : m ∈ n.preorder) : r.node? m.id = some m := by
  have visited := (valid.node?_eq_some_iff.mp found).1
  exact valid.node?_eq_some_iff.mpr ⟨Node.mem_preorder_trans below visited, rfl⟩

theorem Valid.node?_carried (valid : r.Valid) (accepted : r.move source dest index = .ok r')
    (carried : id ∈ r.subtreeIds source) : r'.node? id = r.node? id := by
  obtain ⟨p, target, found, -⟩ := move_cases accepted
  have stood := node?_of_locate? found
  have stands := (valid.node?_move accepted).trans stood
  rw [subtreeIds_of_locate? found, Node.ids, Node.nodes_eq_preorder] at carried
  obtain ⟨m, below, rfl⟩ := List.mem_map.mp carried
  rw [valid.node?_below stood below, (valid.move accepted).1.node?_below stands below]

/-- Whether the attributes of a node are changed before or after an edit that rearranges the rule around
    it: the edit is accepted in both orders or refused for the same reason in both. The rules that come
    out are the same exactly if the change gives the node the same attributes before the edit and after
    it, as it does where it goes by the attributes alone and where the node is carried by a move. What a
    move carries is the changed subtree. -/
theorem retouch_commutes (valid : r.Valid) (found : r.node? id = some n) (kind : n.kind = c.kind)
    (rearranges : r.Rearranges id e) :
    ∃ retouched, r.apply (c.edit id) = .ok retouched ∧
      (∀ why, r.apply e = .error why ↔ retouched.apply e = .error why) ∧
      ∀ r', r.apply e = .ok r' →
        ∃ n' before after, r'.node? id = some n' ∧ n'.bare = n.bare ∧
          retouched.apply e = .ok before ∧ r'.apply (c.edit id) = .ok after ∧
          (before = after ↔ (c.onNode n).bare = (c.onNode n').bare) ∧
          (c.Blind → before = after) ∧
          ∀ source dest index, e = .move source dest index →
            before.node? source = retouched.node? source ∧
              (id ∈ r.subtreeIds source → before = after) := by
  have known := mem_ids_of_node? found
  have accepted := Retouch.apply_edit valid found kind
  obtain rfl : n.id = id := (valid.node?_eq_some_iff.mp found).2
  have leaves (x : String) (other : x ≠ n.id) : (Relabel.assign (c.onNode n)).Leaves x :=
    Relabel.leaves_assign (c.id_onNode n ▸ other)
  have both := rearranges.apply_rule known leaves
  refine ⟨_, accepted, fun why => ?_, fun r' edited => ?_⟩
  · rw [both]
    cases r.apply e <;> simp [Except.map]
  · have valid' := (valid.apply edited).1
    have own := rearranges.own?_eq valid known edited
    rw [own?, own?, found, Option.map_some] at own
    obtain ⟨n', found', bare⟩ := Option.map_eq_some_iff.mp own
    have sameId : n'.id = n.id := (valid'.node?_eq_some_iff.mp found').2
    have sameKind : n'.kind = n.kind := by rw [← n'.kind_bare, bare, n.kind_bare]
    have again := Retouch.apply_edit valid' found' (sameKind.trans kind)
    have same : (Relabel.assign (c.onNode n)).rule r' = (Relabel.assign (c.onNode n')).rule r' ↔
        (c.onNode n).bare = (c.onNode n').bare :=
      Relabel.assign_rule_eq_iff r' found' ((c.id_onNode n).trans sameId.symm)
        ((c.kind_onNode n).trans sameKind.symm) (c.id_onNode n') (c.kind_onNode n')
    rw [edited] at both
    refine ⟨n', _, _, found', bare, both, again, same, fun blind => ?_, ?_⟩
    · exact same.mpr (blind.bare_onNode bare.symm)
    · rintro source dest index rfl
      refine ⟨(valid.apply accepted).1.node?_move both, fun carried => ?_⟩
      rw [valid.node?_carried edited carried, found] at found'
      exact same.mpr (by rw [Option.some.inj found'])

theorem retouch_commutes_twoLevels :
    ∃ retouched r' final, twoLevels.updateFilter "a" ({ · with value := "1" }) = .ok retouched ∧
      twoLevels.move "g" "root" 2 = .ok r' ∧
      r'.updateFilter "a" ({ · with value := "1" }) = .ok final ∧
      retouched.move "g" "root" 2 = .ok final ∧ final.node? "g" = retouched.node? "g" ∧
      retouched.move "g" "a" 0 = .error (.cycle "g" "a") := by
  let c : Retouch := .filter ({ · with value := "1" })
  have found : twoLevels.node? "a" = some (.filter (.blank "a")) := rfl
  obtain ⟨retouched, made, -, moves⟩ :=
    retouch_commutes (c := c) (e := .move "g" "root" 2) valid_twoLevels found rfl trivial
  obtain ⟨again, same, refuses, -⟩ :=
    retouch_commutes (c := c) (e := .move "g" "a" 0) valid_twoLevels found rfl trivial
  obtain rfl := Except.ok.inj (made.symm.trans same)
  obtain ⟨r', moved⟩ : ∃ r', twoLevels.move "g" "root" 2 = .ok r' := ⟨_, rfl⟩
  obtain ⟨-, final, after, -, -, first, last, -, alike, carries⟩ := moves r' moved
  obtain rfl := alike trivial
  exact ⟨retouched, r', final, made, moved, last, first, (carries "g" "root" 2 rfl).1,
    (refuses _).mp rfl⟩

/-- The group `g` is named by the number of its members, of which there are two once `c` is put in. -/
theorem naming_by_members_disagrees :
    let naming : Retouch := .group fun g => { g.toHeader with name := toString g.children.length }
    let putIn : Edit := .insert "g" (Filter.blank "c") none
    let named (name : String) (members : List Filter) : Rule :=
      ⟨{ twoLevels.root with
        children := [.group ⟨"g", name, .or, false, false, false⟩ (members.map Node.filter),
          .filter (.blank "b")] }⟩
    twoLevels.Valid ∧ twoLevels.Rearranges "g" putIn ∧
      twoLevels.apply (naming.edit "g") = .ok (named "1" [.blank "a"]) ∧
      (named "1" [.blank "a"]).apply putIn = .ok (named "1" [.blank "a", .blank "c"]) ∧
      twoLevels.apply putIn = .ok (named "Group" [.blank "a", .blank "c"]) ∧
      (named "Group" [.blank "a", .blank "c"]).apply (naming.edit "g") =
        .ok (named "2" [.blank "a", .blank "c"]) ∧
      named "1" [.blank "a", .blank "c"] ≠ named "2" [.blank "a", .blank "c"] :=
  ⟨valid_twoLevels, trivial, by decide +kernel, by decide +kernel, by decide +kernel,
    by decide +kernel, by decide +kernel⟩

end Rule

end NestedRules
