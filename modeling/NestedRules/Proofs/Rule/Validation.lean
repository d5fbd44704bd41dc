import NestedRules.Proofs.Dump.Delimited
import NestedRules.Proofs.Rule.IdChecks

namespace NestedRules

open Json

theorem Dump.parseNode_append {text x : String} {n : Node} (read : parseNode text = .ok n)
    (blank : ∀ c ∈ x.toList, isBlank c = true) : parseNode (text ++ x) = .ok n := by
  obtain ⟨v, parsed, decoded⟩ := parseNode_eq_ok_iff.mp read
  have reached : (schema none id .ok).Reaches Schema.start text.toList ⟨.plain, .done n⟩ :=
    (reaches_of_ofJson parsed decoded rfl).2
  have behind := Schema.reaches_blanks (s := schema none id .ok) (r := ⟨.plain, .done n⟩) trivial blank
  apply Schema.read_of_reaches
  rw [String.toList_append]
  exact reached.append behind

namespace Rule

/-- The answer to a node that is to be the root of a rule. -/
def AnswersRoot (answer : Except RuleError Rule) : Node → Prop
  | .filter _ => answer = .error .rootNotGroup
  | .group h cs =>
    let nodes := (Node.group h cs).preorder
    ((nodes.map Node.id).Nodup → answer = .ok ⟨⟨h, cs⟩⟩) ∧
      (¬ (nodes.map Node.id).Nodup →
        ∃ m, FirstClash [] nodes m ∧ answer = .error (.duplicateId m.id))

theorem answersRoot_ofNode (n : Node) : AnswersRoot (ofNode n) n := by
  cases n with
  | filter f => rfl
  | group h cs =>
    have ids : (Node.group h cs).ids = (Node.group h cs).preorder.map Node.id := by
      rw [Node.ids, Node.nodes_eq_preorder]
    have fresh : firstRepeat? [] (Node.group h cs).ids = none ↔ (Node.group h cs).ids.Nodup := by
      rw [firstRepeat?_eq_none_iff]
      simp
    rw [AnswersRoot, ← ids, ← fresh]
    constructor
    · intro none
      simp only [ofNode, ofGroup, Group.toNode, none]
    · intro repeated
      obtain ⟨taken, clash⟩ := Option.ne_none_iff_exists'.mp repeated
      obtain ⟨m, first, rfl⟩ := firstRepeat?_ids_eq_some_iff.mp clash
      refine ⟨m, first, ?_⟩
      simp only [ofNode, ofGroup, Group.toNode, clash]

theorem ofNode_eq_ok_iff {n : Node} {r : Rule} :
    ofNode n = .ok r ↔ r.node = n ∧ n.kind = .group ∧ (n.preorder.map Node.id).Nodup := by
  cases n with
  | filter f =>
    constructor
    · intro accepted
      cases accepted
    · rintro ⟨-, kind, -⟩
      cases kind
  | group h cs =>
    rw [ofNode, ofGroup_eq_ok_iff, Valid, ids_eq_preorder]
    constructor
    · rintro ⟨rfl, distinct⟩
      exact ⟨rfl, rfl, distinct⟩
    · rintro ⟨whole, -, distinct⟩
      exact ⟨eq_of_node whole, whole ▸ distinct⟩

/-- Which nodes are rules is decided by the root and by the ids in pre-order, and by these alone, on
    all ways in. The answer to a node is the answer to the group that it is and to every text that is
    read as the node, blanks behind it or not. -/
theorem validation_exact (n : Node) :
    AnswersRoot (ofNode n) n ∧
      (∀ r, ofNode n = .ok r ↔ r.node = n ∧ n.kind = .group ∧ (n.preorder.map Node.id).Nodup) ∧
      (∀ g : Group, g.toNode = n → ofGroup g = ofNode n) ∧
      ∀ text x : String, Dump.parseNode text = .ok n →
        (∀ c ∈ x.toList, c ∈ [' ', '\t', '\n', '\r']) →
        Dump.parse (text ++ x) = (ofNode n).mapError .invalid := by
  refine ⟨answersRoot_ofNode n, fun r => ofNode_eq_ok_iff, ?_, ?_⟩
  · intro g same
    rw [← same]
    rfl
  · intro text x read blank
    have behind := List.all_eq_true.mp (all_isBlank_iff.mpr blank)
    rw [Dump.parse, Dump.parseNode_append read behind]
    rfl

def twice : Node :=
  .group ⟨"root", "Rule", .and, false, false, false⟩
    [.group ⟨"g", "Group", .or, false, false, false⟩ [.filter (.blank "a")], .filter (.blank "a")]

theorem validation_exact_twice :
    ofNode (.filter (.blank "a")) = .error .rootNotGroup ∧
      ofNode twice = .error (.duplicateId "a") ∧
      Dump.parse (twice.toJson.write .compact 0 ++ " \n") = .error (.invalid (.duplicateId "a")) := by
  obtain ⟨⟨-, refused⟩, -, -, texts⟩ := validation_exact twice
  obtain ⟨m, first, named⟩ := refused (by decide)
  have last : m = .filter (.blank "a") := by
    simpa [firstClash_cons, not_firstClash_nil, Node.preorder, Forest.preorder, Node.id, Filter.blank,
      Filter.enabled] using first
  rw [last] at named
  have read := texts _ " \n" (Dump.parseNode_write twice Layout.proper_compact)
    (all_isBlank_iff.mp (by decide))
  rw [named] at read
  exact ⟨(validation_exact (.filter (.blank "a"))).1, named, read⟩

end Rule

end NestedRules
