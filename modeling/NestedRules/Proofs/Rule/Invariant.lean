import NestedRules.Dump.Text
import NestedRules.Proofs.Rule.Table
import NestedRules.Rule.Run

namespace NestedRules.Rule

variable {r r' : Rule}

/-- A rule that came in as a group, as a node or as the text of a dump. -/
def Accepted (r : Rule) : Prop :=
  (∃ g, ofGroup g = .ok r) ∨ (∃ n, ofNode n = .ok r) ∨ ∃ text, Dump.parse text = .ok r

theorem valid_of_ofNode {n : Node} (accepted : ofNode n = .ok r) : r.Valid := by
  cases n with
  | group h cs => exact (ofGroup_eq_ok_iff.mp accepted).2
  | filter f => cases accepted

theorem valid_empty (id name : String) : (empty id name).Valid := by
  simp [Valid, ids, Node.ids_eq, node, empty, Group.empty, Group.toNode, Node.children]

theorem ofNode_of_parse {text : String} (accepted : Dump.parse text = .ok r) :
    ∃ n, ofNode n = .ok r := by
  unfold Dump.parse at accepted
  cases read : Dump.parseNode text with
  | error fault =>
    simp only [read, bind, Except.bind, Except.mapError] at accepted
    cases accepted
  | ok n =>
    cases made : ofNode n with
    | error why =>
      simp only [read, made, bind, Except.bind, Except.mapError] at accepted
      cases accepted
    | ok rule =>
      simp only [read, made, bind, Except.bind, Except.mapError] at accepted
      cases accepted
      exact ⟨n, made⟩

theorem Accepted.valid (accepted : r.Accepted) : r.Valid := by
  rcases accepted with ⟨g, made⟩ | ⟨n, made⟩ | ⟨text, read⟩
  · exact (ofGroup_eq_ok_iff.mp made).2
  · exact valid_of_ofNode made
  · have ⟨n, made⟩ := ofNode_of_parse read
    exact valid_of_ofNode made

theorem Valid.updateGroup {id : String} {f : Group → Group} (valid : r.Valid)
    (accepted : r.updateGroup id f = .ok r') : r'.Valid ∧ r'.root.id = r.root.id := by
  obtain ⟨old, swap, -, free⟩ := swap_of_updateGroup accepted
  have ⟨distinct, unused⟩ := clash?_eq_none_iff.mp free
  exact ⟨swap.valid valid distinct unused, swap.root_id⟩

theorem Valid.updateFilter {id : String} {f : Filter → Filter} (valid : r.Valid)
    (accepted : r.updateFilter id f = .ok r') : r'.Valid ∧ r'.root.id = r.root.id := by
  obtain ⟨old, swap, -, free⟩ := swap_of_updateFilter accepted
  have ⟨distinct, unused⟩ := clash?_eq_none_iff.mp free
  exact ⟨swap.valid valid distinct unused, swap.root_id⟩

theorem root_id_attach {parent : String} {n : Node} {index : Option Nat}
    (accepted : r.attach parent n index = .ok r') : r'.root.id = r.root.id := by
  obtain ⟨g, same, swap⟩ := swap_of_attach accepted
  exact swap.root_id

theorem Valid.insert {parent : String} {n : Node} {index : Option Nat} (valid : r.Valid)
    (accepted : r.insert parent n index = .ok r') : r'.Valid ∧ r'.root.id = r.root.id := by
  have ⟨free, attached⟩ := insert_cases accepted
  have ⟨distinct, fresh⟩ := firstRepeat?_eq_none_iff.mp free
  refine ⟨?_, root_id_attach attached⟩
  refine (ids_attach valid attached).nodup_iff.mpr (List.nodup_append.mpr ⟨valid, distinct, ?_⟩)
  rintro known isKnown new isNew rfl
  exact fresh known isNew isKnown

theorem Valid.remove {id : String} (valid : r.Valid) (accepted : r.remove id = .ok r') :
    r'.Valid ∧ r'.root.id = r.root.id := by
  obtain ⟨p, found, rfl⟩ := remove_cases accepted
  exact ⟨(List.nodup_append.mp (valid.without found)).1, (swap_without found).root_id⟩

theorem Valid.move {source dest : String} {index : Nat} (valid : r.Valid)
    (accepted : r.move source dest index = .ok r') : r'.Valid ∧ r'.root.id = r.root.id := by
  refine ⟨(valid.row?_of_perm (by simp) (rows_move valid accepted)).1, ?_⟩
  obtain ⟨p, target, found, -, -, -, attached⟩ := move_cases accepted
  rw [root_id_attach attached, (swap_without found).root_id]

theorem Valid.apply {edit : Edit} (valid : r.Valid) (accepted : r.apply edit = .ok r') :
    r'.Valid ∧ r'.root.id = r.root.id := by
  cases edit with
  | updateGroup id f => exact valid.updateGroup accepted
  | updateFilter id f => exact valid.updateFilter accepted
  | insert parent n index => exact valid.insert accepted
  | remove id => exact valid.remove accepted
  | move source dest index => exact valid.move accepted

theorem Valid.run (valid : r.Valid) (edits : List Edit) :
    (r.run edits).Valid ∧ (r.run edits).root.id = r.root.id := by
  induction edits generalizing r with
  | nil => exact ⟨valid, rfl⟩
  | cons edit edits ih =>
    unfold Rule.run at ih ⊢
    rw [List.foldl_cons]
    cases outcome : r.apply edit with
    | error why => exact ih valid
    | ok next =>
      have ⟨kept, top⟩ := valid.apply outcome
      have ⟨rest, same⟩ := ih kept
      exact ⟨rest, same.trans top⟩

/-- Whatever edits a rule goes through, refused ones among them, it keeps a group for its root, the
    id of that root, and ids of which none occurs twice. An edit names its node by id alone, so that
    a path from any earlier rule will do. -/
theorem run_wellFormed (accepted : r.Accepted) (edits : List Edit) :
    (r.run edits).node.kind = .group ∧ (r.run edits).ids.Nodup ∧
      (r.run edits).root.id = r.root.id :=
  ⟨rfl, accepted.valid.run edits⟩

def twoLevels : Rule :=
  ⟨⟨⟨"root", "Rule", .and, false, false, false⟩,
    [.group ⟨"g", "Group", .or, false, false, false⟩ [.filter (.blank "a")], .filter (.blank "b")]⟩⟩

theorem valid_twoLevels : twoLevels.Valid := by
  rw [Valid, ids_eq_preorder]
  decide

theorem run_wellFormed_twoLevels :
    let final := twoLevels.run [.move "a" "root" 0, .updateGroup "g" (·.push (Filter.blank "b")),
      .insert "g" (Group.empty "h" "New") none, .remove "root"]
    twoLevels.Accepted ∧ final.node.kind = .group ∧ final.ids.Nodup ∧ final.root.id = "root" := by
  have accepted : twoLevels.Accepted :=
    .inl ⟨twoLevels.root, ofGroup_eq_ok_iff.mpr ⟨rfl, valid_twoLevels⟩⟩
  exact ⟨accepted, run_wellFormed accepted _⟩

end NestedRules.Rule
