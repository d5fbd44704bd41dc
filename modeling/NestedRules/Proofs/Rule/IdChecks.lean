import NestedRules.Proofs.Node.Gap
import NestedRules.Proofs.Rule.Acceptance

namespace NestedRules

/-- The first of some nodes whose id is in use, or is that of an earlier one. -/
def FirstClash (used : List String) (nodes : List Node) (n : Node) : Prop :=
  ∃ before after, nodes = before ++ n :: after ∧ (n.id ∈ used ∨ n.id ∈ before.map Node.id) ∧
    ∀ front m back, before = front ++ m :: back → ¬ (m.id ∈ used ∨ m.id ∈ front.map Node.id)

theorem FirstClash.congr {used used' : List String} {nodes : List Node} {n : Node}
    (first : FirstClash used nodes n) (same : ∀ id, id ∈ used ↔ id ∈ used') :
    FirstClash used' nodes n := by
  simpa only [FirstClash, same] using first

theorem not_firstClash_nil {used : List String} {n : Node} : ¬ FirstClash used [] n := by
  rintro ⟨before, after, split, -⟩
  simp at split

theorem firstClash_cons {used : List String} {m n : Node} {nodes : List Node} :
    FirstClash used (m :: nodes) n ↔
      (m.id ∈ used ∧ n = m) ∨ (m.id ∉ used ∧ FirstClash (m.id :: used) nodes n) := by
  constructor
  · rintro ⟨before, after, split, clash, first⟩
    cases before with
    | nil =>
      obtain ⟨rfl, rfl⟩ := List.cons.inj split
      exact .inl ⟨by simpa using clash, rfl⟩
    | cons head before =>
      obtain ⟨rfl, rfl⟩ := List.cons.inj split
      refine .inr ⟨fun known => first [] m before rfl (.inl known), before, after, rfl, ?_, ?_⟩
      · simpa [or_assoc, or_left_comm] using clash
      · rintro front x back rfl
        simpa [or_assoc, or_left_comm] using first (m :: front) x back rfl
  · rintro (⟨known, rfl⟩ | ⟨unknown, before, after, rfl, clash, first⟩)
    · refine ⟨[], nodes, rfl, .inl known, fun front x back split => ?_⟩
      simp at split
    · refine ⟨m :: before, after, rfl, by simpa [or_assoc, or_left_comm] using clash, ?_⟩
      intro front x back split
      cases front with
      | nil =>
        obtain ⟨rfl, rfl⟩ := List.cons.inj split
        simpa using unknown
      | cons head front =>
        obtain ⟨rfl, rfl⟩ := List.cons.inj split
        simpa [or_assoc, or_left_comm] using first front x back rfl

theorem firstRepeat?_eq_some_iff {used : List String} {nodes : List Node} {id : String} :
    firstRepeat? used (nodes.map Node.id) = some id ↔ ∃ n, FirstClash used nodes n ∧ n.id = id := by
  induction nodes generalizing used with
  | nil => simp [firstRepeat?, not_firstClash_nil]
  | cons m nodes ih =>
    rw [List.map_cons, firstRepeat?]
    by_cases known : m.id ∈ used
    · simp [known, firstClash_cons]
    · simp [known, firstClash_cons, ih]

theorem firstRepeat?_ids_eq_some_iff {used : List String} {n : Node} {id : String} :
    firstRepeat? used n.ids = some id ↔ ∃ m, FirstClash used n.preorder m ∧ m.id = id := by
  rw [Node.ids, Node.nodes_eq_preorder, firstRepeat?_eq_some_iff]

theorem firstRepeat?_ids_eq_none_iff {used : List String} {n : Node} :
    firstRepeat? used n.ids = none ↔ ∀ m, ¬ FirstClash used n.preorder m := by
  rw [← not_iff_not, ← Ne, Option.ne_none_iff_exists']
  simp [firstRepeat?_ids_eq_some_iff]

namespace Rule

variable {r : Rule}

/-- The answer to an edit that puts `new` in the place of the node `id`: the rule with `new` in that
    place if no id then occurs twice, and otherwise a refusal that names the first node of `new` whose
    id stands outside the replaced subtree, or earlier in `new`. -/
def AnswersReplacement (r : Rule) (id : String) (new : Node) (answer : Except Refusal Rule) : Prop :=
  ((r.node.substitute id new).ids.Nodup →
      ∃ r', answer = .ok r' ∧ r'.node = r.node.substitute id new) ∧
    (¬ (r.node.substitute id new).ids.Nodup →
      ∃ n, FirstClash (r.node.idsOutside id) new.preorder n ∧ answer = .error (.duplicateId n.id))

section

variable {frames : List Frame} {old new : Node} (valid : r.Valid)
  (rebuilt : Frame.around frames old = r.node)

include valid rebuilt

theorem Valid.substitute_eq (new : Node) :
    r.node.substitute old.id new = Frame.around frames new := by
  rw [Valid, ids, ← rebuilt] at valid
  rw [← rebuilt, Frame.substitute_around new valid]

variable (same : new.id = old.id)

include same

theorem Valid.exists_ids_eq : ∃ before after, r.node.idsOutside old.id = before ++ after ∧
    r.ids = before ++ old.ids ++ after ∧
    (r.node.substitute old.id new).ids = before ++ new.ids ++ after := by
  rw [valid.substitute_eq rebuilt]
  rw [Valid, ids, ← rebuilt] at valid
  obtain ⟨before, after, outside, split⟩ := Frame.exists_ids_around valid
  rw [ids, ← rebuilt]
  exact ⟨before, after, outside, split old rfl, split new same⟩

theorem Valid.nodup_substitute_iff :
    (r.node.substitute old.id new).ids.Nodup ↔ r.clash? old new = none := by
  obtain ⟨before, after, -, outgoing, incoming⟩ := valid.exists_ids_eq rebuilt same
  rw [Valid, outgoing] at valid
  rw [clash?_eq_none_iff, incoming, outgoing]
  simp only [List.nodup_append, List.mem_append] at valid ⊢
  grind

theorem Valid.exists_firstClash {taken : String} (clash : r.clash? old new = some taken) :
    ∃ n, FirstClash (r.node.idsOutside old.id) new.preorder n ∧ n.id = taken := by
  obtain ⟨n, first, named⟩ := firstRepeat?_ids_eq_some_iff.mp clash
  obtain ⟨before, after, outside, outgoing, -⟩ := valid.exists_ids_eq rebuilt same
  refine ⟨n, first.congr fun id => ?_, named⟩
  rw [Valid, outgoing] at valid
  simp only [outside, outgoing, List.mem_filter, List.nodup_append, List.mem_append,
    decide_eq_true_eq] at valid ⊢
  grind

theorem Valid.answersReplacement {whole : Rule} {answer : Except Refusal Rule}
    (filled : whole.node = Frame.around frames new)
    (refuses : ∀ taken, r.clash? old new = some taken → answer = .error (.duplicateId taken))
    (accepts : r.clash? old new = none → answer = .ok whole) :
    r.AnswersReplacement old.id new answer := by
  constructor
  · intro distinct
    refine ⟨whole, accepts ((valid.nodup_substitute_iff rebuilt same).mp distinct), ?_⟩
    rw [filled, valid.substitute_eq rebuilt]
  · intro repeated
    rw [valid.nodup_substitute_iff rebuilt same, ← Ne, Option.ne_none_iff_exists'] at repeated
    obtain ⟨taken, clash⟩ := repeated
    obtain ⟨n, first, rfl⟩ := valid.exists_firstClash rebuilt same clash
    exact ⟨n, first, refuses _ clash⟩

end

theorem Valid.answersReplacement_updateGroup {id : String} {old : Group} (valid : r.Valid)
    (found : r.node? id = some old.toNode) (f : Group → Group) :
    r.AnswersReplacement id { f old with id }.toNode (r.updateGroup id f) := by
  obtain ⟨frames, focus⟩ := exists_focus?_group found
  obtain ⟨rebuilt, rfl⟩ := around_of_focus?_group focus
  have same : ({ f old with id := old.id } : Group).toNode.id = old.toNode.id := rfl
  refine valid.answersReplacement rebuilt same (Frame.toNode_wrap ..) (fun taken clash => ?_)
    fun free => ?_
  · rw [Rule.updateGroup, focus]
    simp only [clash]
  · rw [Rule.updateGroup, focus]
    simp only [free]

theorem Valid.answersReplacement_updateFilter {id : String} {old : Filter} (valid : r.Valid)
    (found : r.node? id = some (.filter old)) (f : Filter → Filter) :
    r.AnswersReplacement id (.filter { f old with id }) (r.updateFilter id f) := by
  obtain ⟨p, -, -, focus⟩ := exists_focus?_filter found
  obtain ⟨rebuilt, rfl⟩ := around_of_focus?_filter focus
  have same : (Node.filter { f old with id := old.id }).id = (Node.filter old).id := rfl
  refine valid.answersReplacement rebuilt same (p.toNode_put _) (fun taken clash => ?_) fun free => ?_
  · rw [Rule.updateFilter, focus]
    simp only [clash]
  · rw [Rule.updateFilter, focus]
    simp only [free]
    rfl

/-- The answer to an edit that adds `n` to the group `parent`: a refusal that names the first node of
    `n` whose id is in use or stands earlier in `n`, whatever the parent; without such a node a refusal
    of a parent that is not there or is a filter, and otherwise the rule with `n` among the members. No
    id occurs twice in that rule if and only if there is no such node. -/
def AnswersInsertion (r : Rule) (parent : String) (n : Node) (index : Option Nat)
    (answer : Except Refusal Rule) : Prop :=
  (∀ m, FirstClash r.ids n.preorder m → answer = .error (.duplicateId m.id)) ∧
    ((∀ m, ¬ FirstClash r.ids n.preorder m) →
      (parent ∉ r.ids → answer = .error (.unresolved parent)) ∧
        (∀ f, r.node? parent = some (.filter f) → answer = .error (.wrongKind parent .group)) ∧
        ∀ g : Group, r.node? parent = some g.toNode → ∃ r', answer = .ok r' ∧
          r'.node = r.node.substitute parent (g.insert (index.getD g.children.length) n)) ∧
    ∀ g : Group, r.node? parent = some g.toNode →
      ((r.node.substitute parent (g.insert (index.getD g.children.length) n)).ids.Nodup ↔
        ∀ m, ¬ FirstClash r.ids n.preorder m)

theorem focus?_eq_none {id : String} (unknown : id ∉ r.ids) : r.focus? id = none := by
  have notTop : r.root.id ≠ id := by
    rintro rfl
    exact unknown r.node.id_mem_ids
  have below : r.node.place? id = none := by
    rw [ids, Node.ids_eq, List.mem_cons, not_or] at unknown
    exact Node.place?_eq_none unknown.2
  rw [focus?, if_neg notTop, below, Option.map_none]

theorem Valid.exists_attach_eq {parent : String} {g : Group} (valid : r.Valid)
    (found : r.node? parent = some g.toNode) (n : Node) (index : Option Nat) :
    ∃ r', r.attach parent n index = .ok r' ∧
      r'.node = r.node.substitute parent (g.insert (index.getD g.children.length) n) := by
  obtain ⟨frames, focus⟩ := exists_focus?_group found
  obtain ⟨rebuilt, rfl⟩ := around_of_focus?_group focus
  refine ⟨_, by rw [attach, focus], ?_⟩
  exact (Frame.toNode_wrap ..).trans (valid.substitute_eq rebuilt _).symm

theorem Valid.nodup_inserted_iff {parent : String} {g : Group} (valid : r.Valid)
    (found : r.node? parent = some g.toNode) (n : Node) (index : Option Nat) :
    (r.node.substitute parent (g.insert (index.getD g.children.length) n)).ids.Nodup ↔
      ∀ m, ¬ FirstClash r.ids n.preorder m := by
  obtain ⟨r', attached, whole⟩ := valid.exists_attach_eq found n index
  have together : r'.ids.Nodup ↔ (r.ids ++ n.ids).Nodup := (ids_attach valid attached).nodup_iff
  rw [← whole, ← firstRepeat?_ids_eq_none_iff, firstRepeat?_eq_none_iff]
  apply together.trans
  rw [Valid] at valid
  rw [List.nodup_append]
  grind

theorem Valid.answersInsertion (valid : r.Valid) (parent : String) (n : Node) (index : Option Nat) :
    r.AnswersInsertion parent n index (r.insert parent n index) := by
  refine ⟨?_, ?_, fun g found => valid.nodup_inserted_iff found n index⟩
  · intro m first
    rw [Rule.insert, firstRepeat?_ids_eq_some_iff.mpr ⟨m, first, rfl⟩]
  · intro free
    have passed : r.insert parent n index = r.attach parent n index := by
      rw [Rule.insert, firstRepeat?_ids_eq_none_iff.mpr free]
    rw [passed]
    refine ⟨?_, ?_, fun g found => valid.exists_attach_eq found n index⟩
    · intro unknown
      rw [attach, focus?_eq_none unknown]
    · intro f found
      obtain ⟨p, -, -, focus⟩ := exists_focus?_filter found
      rw [attach, focus]

/-- An update answers by the ids of the rule that it makes, and an insertion by the ids that it brings
    in, before it looks for its parent. -/
theorem edits_check_ids (valid : r.Valid) :
    (∀ id (old : Group) (f : Group → Group), r.node? id = some old.toNode →
      r.AnswersReplacement id { f old with id }.toNode (r.updateGroup id f)) ∧
      (∀ id (old : Filter) (f : Filter → Filter), r.node? id = some (.filter old) →
        r.AnswersReplacement id (.filter { f old with id }) (r.updateFilter id f)) ∧
      ∀ parent n index, r.AnswersInsertion parent n index (r.insert parent n index) :=
  ⟨fun _ _ f found => valid.answersReplacement_updateGroup found f,
    fun _ _ f found => valid.answersReplacement_updateFilter found f, valid.answersInsertion⟩

/-- The group `g` may put a new group around its member, but may not hold its own id; an id in use is
    named although the parent is not there. -/
theorem edits_check_ids_twoLevels :
    let regroup : Group → Group := fun g =>
      { g with children := [(⟨⟨"h", "New", .and, false, false, false⟩, g.children⟩ : Group)] }
    (∃ r', twoLevels.updateGroup "g" regroup = .ok r') ∧
      twoLevels.updateGroup "g" (·.push (Filter.blank "g")) = .error (.duplicateId "g") ∧
      twoLevels.insert "x" (Filter.blank "a") none = .error (.duplicateId "a") := by
  intro regroup
  obtain ⟨groups, -, insertions⟩ := edits_check_ids valid_twoLevels
  have found : twoLevels.node? "g" = some (Group.toNode
      ⟨⟨"g", "Group", .or, false, false, false⟩, [.filter (.blank "a")]⟩) := rfl
  refine ⟨?_, ?_, ?_⟩
  · obtain ⟨r', accepted, -⟩ := (groups "g" _ regroup found).1 (by decide +kernel)
    exact ⟨r', accepted⟩
  · obtain ⟨n, first, refused⟩ := (groups "g" _ (·.push (Filter.blank "g")) found).2
      (by decide +kernel)
    have last : n = .filter (.blank "g") := by
      simpa [firstClash_cons, not_firstClash_nil, twoLevels, Rule.node, Group.push, Group.toNode,
        Node.preorder, Forest.preorder, Node.idsOutside, Forest.idsOutside, Node.id, Filter.blank,
        Filter.enabled] using first
    rw [refused, last]
    rfl
  · exact (insertions "x" (Filter.blank "a") none).1 (.filter (.blank "a"))
      ⟨[], [], rfl, .inl (by decide +kernel), by simp⟩

end Rule

end NestedRules
