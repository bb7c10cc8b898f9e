import SchemaCompiler.Proofs.Registry.Components
import SchemaCompiler.Proofs.Registry.Steps

/-!
# Components by two passes

The first pass walks a graph depth first and notes the nodes in the order in which it leaves
them. The second pass takes the latest of them first and walks the reversed graph from each
that it has not met. What every walk meets then is one component: a node that leads to the
start of the walk without being led back was left later, or lies with one that was.
-/

namespace SchemaCompiler
namespace Order
namespace Graph

open Relation

/-- The nodes lead to each other. -/
def Mutual (graph : Graph) (node other : String) : Prop :=
  ReflTransGen graph.Edge node other ∧ ReflTransGen graph.Edge other node

theorem Mutual.symm
    {graph : Graph}
    {node other : String}
    (mutually : graph.Mutual node other) :
    graph.Mutual other node :=
  ⟨mutually.2, mutually.1⟩

theorem Mutual.trans
    {graph : Graph}
    {first second third : String}
    (left : graph.Mutual first second)
    (right : graph.Mutual second third) :
    graph.Mutual first third :=
  ⟨left.1.trans right.1, right.2.trans left.2⟩

/-! ## The first pass -/

/-- The node that a step of a walk is about. -/
def Step.node : Step → String
  | .enter node => node
  | .leave node => node

/-- The nodes that a walk has entered and not left. -/
def opened (pending : List Step) : List String :=
  pending.filterMap fun
    | .enter _ => none
    | .leave node => some node

@[simp] theorem mem_opened
    {pending : List Step}
    {node : String} :
    node ∈ opened pending ↔ .leave node ∈ pending := by
  unfold opened
  rw [List.mem_filterMap]
  constructor
  · rintro ⟨⟨other⟩ | ⟨other⟩, member, same⟩
    · cases same
    · cases same
      exact member
  · exact fun member => ⟨_, member, rfl⟩

/-- In an order in which nodes were left, a node leads to nothing else that was not left before
it, or it lies with a node that was left later or is among the others. -/
def Settled (graph : Graph) (others order : List String) : Prop :=
  ∀ earlier node later, order = earlier ++ node :: later →
    (∀ target, ReflTransGen graph.Edge node target → target = node ∨ target ∈ earlier) ∨
      ∃ partner, (partner ∈ later ∨ partner ∈ others) ∧ graph.Mutual node partner

/-- What holds at every step of a walk that notes the nodes it leaves. -/
structure Underway
    (graph : Graph)
    (seen finished : List String)
    (pending : List Step) : Prop where
  distinct : seen.Nodup
  inside : ∀ node ∈ seen, node ∈ graph.nodes
  places : seen.Perm (finished ++ opened pending)
  /-- A node is entered from an open one, and all that is open leads to it. -/
  chained : pending.Pairwise fun first second => first.node ∈ graph.nodes →
    ∀ outer, second = .leave outer → ReflTransGen graph.Edge outer first.node
  /-- A node is not left before all nodes that follow it are seen. -/
  followed : ∀ before node after, pending = before ++ .leave node :: after →
    ∀ target, graph.Edge node target → target ∈ seen ∨ .enter target ∈ before
  closed : ∀ node ∈ finished, ∀ target, graph.Edge node target → target ∈ seen
  settled : graph.Settled (opened pending) finished.reverse

namespace Underway

variable
  {graph : Graph}
  {seen finished : List String}
  {node : String}
  {pending : List Step}

/-- A node that is open is a node of the graph. -/
theorem mem_nodes (underway : graph.Underway seen finished (.leave node :: pending)) :
    node ∈ graph.nodes :=
  underway.inside node
    (underway.places.mem_iff.mpr (List.mem_append_right _ (mem_opened.mpr List.mem_cons_self)))

/-- A node that is left leads to nodes that were left before, or lies with one that is open. -/
theorem settled_of_leave
    (underway : graph.Underway seen finished (.leave node :: pending)) :
    (∀ target, ReflTransGen graph.Edge node target → target = node ∨ target ∈ finished) ∨
      ∃ partner ∈ opened pending, graph.Mutual node partner := by
  by_cases together : ∃ partner ∈ opened pending, graph.Mutual node partner
  · exact .inr together
  refine .inl fun target way => ?_
  induction way with
  | refl => exact .inl rfl
  | @tail inner target way edge hypothesis =>
      have member : target ∈ seen := by
        rcases hypothesis with same | inside
        · rw [same] at edge
          exact (underway.followed [] _ pending rfl target edge).resolve_right List.not_mem_nil
        · exact underway.closed inner inside target edge
      rcases List.mem_append.mp (underway.places.mem_iff.mp member) with inside | isOpen
      · exact .inr inside
      · rcases List.mem_cons.mp isOpen with same | outer
        · exact .inl same
        · have back := List.rel_of_pairwise_cons underway.chained (mem_opened.mp outer)
            underway.mem_nodes target rfl
          exact absurd ⟨target, outer, way.tail edge, back⟩ together

/-- The walk leaves a node. -/
theorem leave
    (underway : graph.Underway seen finished (.leave node :: pending)) :
    graph.Underway seen (node :: finished) pending := by
  refine ⟨underway.distinct, underway.inside, underway.places.trans List.perm_middle,
    (List.pairwise_cons.mp underway.chained).2, ?_, ?_, ?_⟩
  · rintro before other after rfl target edge
    rcases underway.followed (.leave node :: before) other after rfl target edge with inside | entry
    · exact .inl inside
    · exact .inr (by simpa using entry)
  · intro other member target edge
    rcases List.mem_cons.mp member with rfl | earlier
    · exact (underway.followed [] _ pending rfl target edge).resolve_right List.not_mem_nil
    · exact underway.closed other earlier target edge
  · intro earlier other later split
    rw [List.reverse_cons] at split
    rcases List.eq_nil_or_concat later with rfl | ⟨rest, last, rfl⟩
    · obtain ⟨rfl, same⟩ := List.append_inj' split rfl
      obtain rfl : node = other := List.head_eq_of_cons_eq same
      exact underway.settled_of_leave.imp
        (fun closed target way => (closed target way).imp_right List.mem_reverse.mpr)
        fun ⟨partner, isOpen, mutually⟩ => ⟨partner, .inr isOpen, mutually⟩
    · rw [List.concat_eq_append, ← List.cons_append, ← List.append_assoc] at split
      obtain ⟨before, same⟩ := List.append_inj' split rfl
      obtain rfl : node = last := List.head_eq_of_cons_eq same
      refine (underway.settled earlier other rest before).imp_right ?_
      rintro ⟨partner, place, mutually⟩
      rw [List.concat_eq_append]
      refine ⟨partner, ?_, mutually⟩
      rcases place with behind | isOpen
      · exact .inl (List.mem_append_left _ behind)
      · rcases List.mem_cons.mp isOpen with rfl | outer
        · exact .inl (List.mem_append_right _ (List.mem_singleton.mpr rfl))
        · exact .inr outer

/-- The walk passes over a name that it has seen or that is no node. -/
theorem skip
    (underway : graph.Underway seen finished (.enter node :: pending))
    (known : node ∈ seen ∨ node ∉ graph.nodes) :
    graph.Underway seen finished pending := by
  refine ⟨underway.distinct, underway.inside, underway.places,
    (List.pairwise_cons.mp underway.chained).2, ?_, underway.closed, underway.settled⟩
  rintro before other after rfl target edge
  rcases underway.followed (.enter node :: before) other after rfl target edge with inside | entry
  · exact .inl inside
  · rcases List.mem_cons.mp entry with same | inBefore
    · cases same
      exact .inl (known.resolve_right fun absent => absent edge.2)
    · exact .inr inBefore

/-- The names that follow a node are put in front of it, and what is open leads to them. -/
theorem chained_enter
    (underway : graph.Underway seen finished (.enter node :: pending))
    (isNode : node ∈ graph.nodes) :
    ((graph.next node).reverse.map Step.enter ++ .leave node :: pending).Pairwise
      fun first second => first.node ∈ graph.nodes →
        ∀ outer, second = .leave outer → ReflTransGen graph.Edge outer first.node := by
  obtain ⟨above, chained⟩ := List.pairwise_cons.mp underway.chained
  refine List.pairwise_append.mpr ⟨?_, List.pairwise_cons.mpr ⟨?_, chained⟩, ?_⟩
  · refine List.pairwise_map.mpr (List.pairwise_of_forall fun first second _ outer same => ?_)
    cases same
  · exact fun second member _ => above second member isNode
  · intro first member second member' isTarget outer same
    obtain ⟨target, follows, rfl⟩ := List.mem_map.mp member
    have edge : graph.Edge node target := ⟨List.mem_reverse.mp follows, isTarget⟩
    rcases List.mem_cons.mp member' with own | outside
    · cases own.symm.trans same
      exact .single edge
    · exact (above second outside isNode outer same).tail edge

/-- Every node that follows an open one is seen or comes before the open one is left. -/
theorem followed_enter
    (underway : graph.Underway seen finished (.enter node :: pending))
    {before after : List Step}
    {other target : String}
    (split : (graph.next node).reverse.map Step.enter ++ .leave node :: pending =
      before ++ .leave other :: after)
    (edge : graph.Edge other target) :
    target ∈ node :: seen ∨ .enter target ∈ before := by
  have followers : ∀ target, graph.Edge node target →
      Step.enter target ∈ (graph.next node).reverse.map .enter :=
    fun target edge => List.mem_map_of_mem (List.mem_reverse.mpr edge.1)
  rcases List.append_eq_append_iff.mp split with
    ⟨middle, rfl, rest⟩ | ⟨middle, entries, rest⟩
  · rcases List.cons_eq_append_iff.mp rest with ⟨rfl, same⟩ | ⟨later, rfl, same⟩
    · cases same
      exact .inr (List.mem_append_left _ (followers target edge))
    · rcases underway.followed (.enter node :: later) other after (by rw [same]; rfl) target
        edge with known | entry
      · exact .inl (List.mem_cons_of_mem node known)
      · rcases List.mem_cons.mp entry with own | inLater
        · cases own
          exact .inl List.mem_cons_self
        · exact .inr (List.mem_append_right _ (List.mem_cons_of_mem _ inLater))
  · rcases List.cons_eq_append_iff.mp rest with ⟨rfl, same⟩ | ⟨later, rfl, same⟩
    · cases same
      rw [List.append_nil] at entries
      exact .inr (entries ▸ followers target edge)
    · have impossible : Step.leave other ∈ (graph.next node).reverse.map .enter := by
        rw [entries]
        exact List.mem_append_right _ List.mem_cons_self
      obtain ⟨_, _, different⟩ := List.mem_map.mp impossible
      cases different

/-- The walk enters a node. -/
theorem enter
    (underway : graph.Underway seen finished (.enter node :: pending))
    (fresh : node ∉ seen)
    (isNode : node ∈ graph.nodes) :
    graph.Underway (node :: seen) finished
      ((graph.next node).reverse.map .enter ++ .leave node :: pending) := by
  have opened_eq : opened ((graph.next node).reverse.map .enter ++ .leave node :: pending) =
      node :: opened pending := by
    simp [opened, List.filterMap_map]
  refine ⟨List.nodup_cons.mpr ⟨fresh, underway.distinct⟩,
    List.forall_mem_cons.mpr ⟨isNode, underway.inside⟩, ?_, underway.chained_enter isNode,
    fun _ _ _ split _ edge => underway.followed_enter split edge, ?_, ?_⟩
  · rw [opened_eq]
    exact (underway.places.cons node).trans List.perm_middle.symm
  · exact fun other member target edge =>
      List.mem_cons_of_mem node (underway.closed other member target edge)
  · rw [opened_eq]
    intro earlier other later split
    refine (underway.settled earlier other later split).imp_right ?_
    rintro ⟨partner, place, mutually⟩
    exact ⟨partner, place.imp_right (List.mem_cons_of_mem node), mutually⟩

end Underway

/-- The nodes that a walk notes are distinct, and what each leads to was left before it or lies
with one that was left after it. -/
theorem settled_finish
    {graph : Graph}
    {seen finished : List String}
    {pending : List Step}
    (underway : graph.Underway seen finished pending) :
    (graph.finish seen finished pending).Nodup ∧
      (∀ node ∈ graph.finish seen finished pending, node ∈ graph.nodes) ∧
      graph.Settled [] (graph.finish seen finished pending) := by
  induction seen, finished, pending using finish_induct graph with
  | nil seen finished =>
      have places : seen.Perm finished := (List.append_nil finished ▸ underway.places :)
      rw [finish_nil]
      refine ⟨List.nodup_reverse.mpr (places.nodup_iff.mp underway.distinct), ?_,
        underway.settled⟩
      exact fun node member =>
        underway.inside node (places.mem_iff.mpr (List.mem_reverse.mp member))
  | leave seen finished node pending hypothesis =>
      rw [finish_leave]
      exact hypothesis underway.leave
  | known seen finished node pending known hypothesis =>
      rw [finish_of_known known]
      exact hypothesis (underway.skip known)
  | new seen finished node pending fresh inside hypothesis =>
      rw [finish_of_new fresh inside]
      exact hypothesis (underway.enter fresh inside)

theorem settled_finishingOrder (graph : Graph) :
    graph.finishingOrder.Nodup ∧
      (∀ node ∈ graph.finishingOrder, node ∈ graph.nodes) ∧
      graph.Settled [] graph.finishingOrder := by
  refine settled_finish ⟨.nil, List.forall_mem_nil _, ?_, ?_, ?_, List.forall_mem_nil _, ?_⟩
  · simp [opened, List.filterMap_map]
  · refine List.pairwise_map.mpr (List.pairwise_of_forall fun first second _ outer same => ?_)
    cases same
  · intro before node after split
    have impossible : Step.leave node ∈ graph.nodes.map .enter := by
      rw [split]
      exact List.mem_append_right _ List.mem_cons_self
    obtain ⟨_, _, different⟩ := List.mem_map.mp impossible
    cases different
  · intro earlier node later split
    simp at split

/-- A node that leads to one left later lies with it, or with one that was left later still. -/
theorem Settled.exists_partner
    {graph : Graph}
    {order earlier middle later : List String}
    {node target : String}
    (settled : graph.Settled [] order)
    (distinct : order.Nodup)
    (split : order = earlier ++ node :: (middle ++ target :: later))
    (way : ReflTransGen graph.Edge node target) :
    graph.Mutual node target ∨ ∃ partner ∈ later, graph.Mutual node partner := by
  induction length : middle.length using Nat.strongRecOn
    generalizing earlier node middle with
  | _ size hypothesis =>
      rcases settled earlier node _ split with closed | ⟨partner, place, mutually⟩
      · rcases closed target way with rfl | before
        · exact .inl ⟨.refl, .refl⟩
        · rw [split] at distinct
          have apart := (List.nodup_append.mp distinct).2.2 target before target (by simp)
          exact absurd rfl apart
      · rcases List.mem_append.mp (place.resolve_right List.not_mem_nil) with between | behind
        · obtain ⟨front, back, rfl⟩ := List.append_of_mem between
          have shorter : back.length < size := by
            rw [← length, List.length_append, List.length_cons]
            omega
          have again : order =
              (earlier ++ node :: front) ++ partner :: (back ++ target :: later) := by
            simp [split]
          rcases hypothesis back.length shorter again (mutually.2.trans way) rfl with
            together | ⟨other, member, together⟩
          · exact .inl (mutually.trans together)
          · exact .inr ⟨other, member, mutually.trans together⟩
        · rcases List.mem_cons.mp behind with rfl | after
          · exact .inl mutually
          · exact .inr ⟨partner, after, mutually⟩

/-! ## Edges turned round -/

/-- A way that starts at a node ends at one. -/
theorem mem_nodes_of_way
    {graph : Graph}
    {source target : String}
    (inside : source ∈ graph.nodes)
    (way : ReflTransGen graph.Edge source target) :
    target ∈ graph.nodes := by
  rcases way.cases_tail with same | ⟨before, -, last⟩
  · exact same ▸ inside
  · exact last.2

@[simp] theorem reversed_reversed (graph : Graph) : graph.reversed.reversed = graph := by
  simp [reversed, Function.comp_def]

/-- A way between nodes is one back in the reversed graph. -/
theorem reflTransGen_reversed
    {graph : Graph}
    {source target : String}
    (inside : source ∈ graph.nodes)
    (way : ReflTransGen graph.Edge source target) :
    ReflTransGen graph.reversed.Edge target source := by
  induction way with
  | refl => exact .refl
  | @tail middle target way edge hypothesis =>
      have middleInside : middle ∈ graph.nodes := mem_nodes_of_way inside way
      have turned : (target, middle) ∈ graph.reversed.edges :=
        List.mem_map.mpr ⟨(middle, target), mem_next.mp edge.1, rfl⟩
      exact .head ⟨mem_next.mpr turned, middleInside⟩ hypothesis

theorem mutual_of_reversed
    {graph : Graph}
    {node other : String}
    (nodeInside : node ∈ graph.nodes)
    (otherInside : other ∈ graph.nodes)
    (mutually : graph.reversed.Mutual node other) :
    graph.Mutual node other := by
  have forth := @reflTransGen_reversed graph.reversed _ _ otherInside mutually.2
  have back := @reflTransGen_reversed graph.reversed _ _ nodeInside mutually.1
  rw [reversed_reversed] at forth back
  exact ⟨forth, back⟩

/-- What a node leads to lies with it, or with one that the first pass left later. -/
theorem exists_partner_of_way
    {graph : Graph}
    {earlier later : List String}
    {node target : String}
    (split : graph.reversed.finishingOrder = earlier ++ node :: later)
    (way : ReflTransGen graph.Edge node target) :
    graph.Mutual node target ∨ ∃ partner ∈ later, graph.Mutual target partner := by
  obtain ⟨distinct, inside, settled⟩ := graph.reversed.settled_finishingOrder
  have nodeInside : node ∈ graph.nodes := inside node (by simp [split])
  have targetInside : target ∈ graph.nodes := mem_nodes_of_way nodeInside way
  have place : target ∈ earlier ++ node :: later :=
    split ▸ graph.reversed.mem_finishingOrder targetInside
  rcases List.mem_append.mp place with before | behind
  · obtain ⟨front, middle, rfl⟩ := List.append_of_mem before
    have whole : graph.reversed.finishingOrder = front ++ target :: (middle ++ node :: later) := by
      simp [split]
    rcases settled.exists_partner distinct whole (reflTransGen_reversed nodeInside way) with
      mutually | ⟨partner, member, mutually⟩
    · exact .inl (mutual_of_reversed targetInside nodeInside mutually).symm
    · have partnerInside : partner ∈ graph.nodes := inside partner (by simp [split, member])
      exact .inr ⟨partner, member, mutual_of_reversed targetInside partnerInside mutually⟩
  · rcases List.mem_cons.mp behind with rfl | after
    · exact .inl ⟨.refl, .refl⟩
    · exact .inr ⟨target, after, .refl, .refl⟩

/-! ## The second pass -/

/-- What walks from some names meet, each without what was met before it. -/
def sweep (graph : Graph) (seen : List String) : List String → List (List String)
  | [] => []
  | node :: rest =>
      if node ∈ seen then sweep graph seen rest
      else
        (graph.walk seen [node]).drop seen.length ::
          sweep graph (graph.walk seen [node]).reverse rest

/-- A walk lists first what was seen before it. -/
theorem prefix_walk
    (graph : Graph)
    (seen pending : List String) :
    seen.reverse <+: graph.walk seen pending := by
  induction seen, pending using walk_induct graph with
  | nil seen => simp
  | known seen node pending known hypothesis =>
      rw [walk_of_known known]
      exact hypothesis
  | new seen node pending fresh inside hypothesis =>
      rw [List.reverse_cons] at hypothesis
      rw [walk_of_new fresh inside]
      exact (List.prefix_append _ _).trans hypothesis

/-- A walk passes over names that were seen or are no nodes. -/
theorem walk_append
    {graph : Graph}
    {seen known : List String}
    (all : ∀ node ∈ known, node ∈ seen ∨ node ∉ graph.nodes)
    (pending : List String) :
    graph.walk seen (known ++ pending) = graph.walk seen pending := by
  induction known with
  | nil => rfl
  | cons node rest hypothesis =>
      obtain ⟨first, others⟩ := List.forall_mem_cons.mp all
      rw [List.cons_append, walk_of_known first]
      exact hypothesis others

/-- The name is that of a node outside a part of the graph. -/
def isOutside (graph : Graph) (part : List String) (node : String) : Bool :=
  graph.nodes.contains node && !part.contains node

theorem isOutside_iff
    {graph : Graph}
    {part : List String}
    {node : String} :
    graph.isOutside part node = true ↔ node ∈ graph.nodes ∧ node ∉ part := by
  simp [isOutside]

/-- A walk that has seen a part of the graph passes over what is not outside it. -/
theorem seen_or_absent
    {graph : Graph}
    {part seen : List String}
    {node : String}
    (contained : part ⊆ seen)
    (inner : ¬graph.isOutside part node = true) :
    node ∈ seen ∨ node ∉ graph.nodes := by
  by_cases inside : node ∈ graph.nodes
  · exact .inl (contained (Decidable.byContradiction fun absent =>
      inner (isOutside_iff.mpr ⟨inside, absent⟩)))
  · exact .inr inside

/-- So it goes on with the first pending node outside the part. -/
theorem exists_walk_cons
    {graph : Graph}
    {part seen pending rest : List String}
    {node : String}
    (contained : part ⊆ seen)
    (next : pending.filter (graph.isOutside part) = node :: rest) :
    ∃ left, graph.walk seen pending = graph.walk seen (node :: left) ∧
      left.filter (graph.isOutside part) = rest := by
  obtain ⟨front, left, rfl, inner, -, same⟩ := List.filter_eq_cons_iff.mp next
  exact ⟨left, walk_append (fun other member => seen_or_absent contained (inner other member)) _,
    same⟩

/-- Outside a part of the graph that no edge leaves, a walk that has seen the part meets what any
walk meets, in the same order. -/
theorem filter_walk
    {graph : Graph}
    {part : List String}
    (closed : ∀ node ∈ part, ∀ target, graph.Edge node target → target ∈ part)
    (seen pending : List String)
    {more left : List String}
    (contained : part ⊆ more)
    (sameSeen : more.filter (graph.isOutside part) = seen.filter (graph.isOutside part))
    (sameLeft : left.filter (graph.isOutside part) = pending.filter (graph.isOutside part)) :
    (graph.walk more left).filter (graph.isOutside part) =
      (graph.walk seen pending).filter (graph.isOutside part) := by
  have seen_iff : ∀ {seen more : List String} {node : String},
      more.filter (graph.isOutside part) = seen.filter (graph.isOutside part) →
        graph.isOutside part node = true → (node ∈ more ↔ node ∈ seen) := by
    intro seen more node same outside
    have := congrArg (node ∈ ·) same
    simpa [List.mem_filter, outside] using this
  induction seen, pending using walk_induct graph generalizing more left with
  | nil seen =>
      have finished : graph.walk more (left ++ []) = graph.walk more [] :=
        walk_append (fun node member =>
          seen_or_absent contained (List.filter_eq_nil_iff.mp sameLeft node member)) []
      rw [List.append_nil] at finished
      rw [finished, walk_nil, walk_nil, List.filter_reverse, List.filter_reverse, sameSeen]
  | known seen node pending known hypothesis =>
      rw [walk_of_known known]
      cases outside : graph.isOutside part node with
      | false =>
          rw [List.filter_cons_of_neg (by simp [outside])] at sameLeft
          exact hypothesis contained sameSeen sameLeft
      | true =>
          rw [List.filter_cons_of_pos outside] at sameLeft
          obtain ⟨rest, walked, same⟩ := exists_walk_cons contained sameLeft
          have again : node ∈ more ∨ node ∉ graph.nodes :=
            known.imp_left (seen_iff sameSeen outside).mpr
          rw [walked, walk_of_known again]
          exact hypothesis contained sameSeen same
  | new seen node pending fresh isNode hypothesis =>
      rw [walk_of_new fresh isNode]
      cases outside : graph.isOutside part node with
      | false =>
          have inPart : node ∈ part := Decidable.byContradiction fun absent => by
            rw [isOutside_iff.mpr ⟨isNode, absent⟩] at outside
            cases outside
          refine hypothesis contained ?_ ?_
          · rw [sameSeen, List.filter_cons_of_neg (by simp [outside])]
          · have followers : (graph.next node).reverse.filter (graph.isOutside part) = [] := by
              refine List.filter_eq_nil_iff.mpr fun target member beyond => ?_
              obtain ⟨targetNode, apart⟩ := isOutside_iff.mp beyond
              exact apart (closed node inPart target ⟨List.mem_reverse.mp member, targetNode⟩)
            rw [List.filter_append, followers, List.nil_append, sameLeft,
              List.filter_cons_of_neg (by simp [outside])]
      | true =>
          rw [List.filter_cons_of_pos outside] at sameLeft
          obtain ⟨rest, walked, same⟩ := exists_walk_cons contained sameLeft
          rw [walked, walk_of_new (mt (seen_iff sameSeen outside).mp fresh) isNode]
          refine hypothesis (List.subset_cons_of_subset node contained) ?_ ?_
          · rw [List.filter_cons_of_pos outside, List.filter_cons_of_pos outside, sameSeen]
          · rw [List.filter_append, List.filter_append, same]

/-- What the second pass has found before some names, the earlier ones being done. -/
structure Swept
    (graph : Graph)
    (earlier : List String)
    (found : List (List String))
    (seen : List String) : Prop where
  distinct : seen.Nodup
  inside : ∀ node ∈ seen, node ∈ graph.nodes
  closed : ∀ node ∈ seen, ∀ target, graph.Edge node target → target ∈ seen
  members : ∀ node, node ∈ seen ↔ ∃ component ∈ found, node ∈ component
  covered : ∀ node ∈ earlier, node ∈ seen

namespace Swept

variable
  {graph : Graph}
  {earlier seen : List String}
  {found : List (List String)}
  {node : String}

/-- What is seen leads to nothing else. -/
theorem mem_seen_of_way
    (swept : graph.Swept earlier found seen)
    {target : String}
    (member : node ∈ seen)
    (way : ReflTransGen graph.Edge node target) :
    target ∈ seen := by
  induction way with
  | refl => exact member
  | tail _ edge hypothesis => exact swept.closed _ hypothesis _ edge

/-- A walk from a node meets the nodes that it leads to and that were not seen. -/
theorem drop_walk
    (swept : graph.Swept earlier found seen)
    (node : String) :
    (graph.walk seen [node]).drop seen.length =
      (graph.walkFrom node).filter (graph.isOutside seen) := by
  obtain ⟨new, split⟩ := graph.prefix_walk seen [node]
  have distinct := graph.nodup_walk seen [node] swept.distinct
  have inside : ∀ other ∈ graph.walk seen [node], other ∈ graph.nodes :=
    forall_mem_walk (· ∈ graph.nodes) (fun _ _ _ edge => edge.2) seen [node] swept.inside
      fun _ _ isNode => isNode
  rw [← split] at distinct inside
  have old : seen.filter (graph.isOutside seen) = [] :=
    List.filter_eq_nil_iff.mpr fun other member outside => (isOutside_iff.mp outside).2 member
  have fresh : new.filter (graph.isOutside seen) = new := by
    refine List.filter_eq_self.mpr fun other member => isOutside_iff.mpr ⟨?_, ?_⟩
    · exact inside other (List.mem_append_right _ member)
    · exact fun known => (List.nodup_append.mp distinct).2.2 other (List.mem_reverse.mpr known)
        other member rfl
  have same := filter_walk swept.closed [] [node] (List.Subset.refl seen) old rfl
  rw [← split, List.filter_append, List.filter_reverse, old, fresh, List.reverse_nil,
    List.nil_append] at same
  rw [← split, List.drop_left' List.length_reverse, same]
  rfl

/-- What the walk from a node that was not seen meets is the component of the node. -/
theorem drop_walk_eq_component
    {rest : List String}
    (swept : graph.Swept earlier found seen)
    (order : graph.reversed.finishingOrder.reverse = earlier ++ node :: rest)
    (fresh : node ∉ seen) :
    (graph.walk seen [node]).drop seen.length = graph.component node := by
  rw [swept.drop_walk node, component]
  refine List.filter_congr fun target met => ?_
  obtain ⟨inside, way⟩ := mem_walkFrom_iff.mp met
  have targetInside : target ∈ graph.nodes := mem_nodes_of_way inside way
  rw [Bool.eq_iff_iff, isOutside_iff, List.contains_iff_mem, mem_walkFrom_iff,
    and_iff_right targetInside, and_iff_right targetInside]
  constructor
  · intro unseen
    have split : graph.reversed.finishingOrder = rest.reverse ++ node :: earlier.reverse := by
      rw [← List.reverse_reverse graph.reversed.finishingOrder, order]
      simp
    rcases exists_partner_of_way split way with mutually | ⟨partner, member, mutually⟩
    · exact mutually.2
    · have known := swept.covered partner (List.mem_reverse.mp member)
      exact absurd (swept.mem_seen_of_way known mutually.2) unseen
  · exact fun back known => fresh (swept.mem_seen_of_way known back)

/-- The second pass finds the component of a node that was not seen. -/
theorem found_component
    {rest : List String}
    (swept : graph.Swept earlier found seen)
    (order : graph.reversed.finishingOrder.reverse = earlier ++ node :: rest)
    (fresh : node ∉ seen) :
    graph.Swept (earlier ++ [node]) (found ++ [graph.component node])
      (graph.walk seen [node]).reverse := by
  obtain ⟨keepsSeen, keepsPending, keepsEdges⟩ := graph.walk_closed seen [node]
    fun source member target edge => .inl (swept.closed source member target edge)
  have isNode : node ∈ graph.nodes := by
    refine graph.reversed.settled_finishingOrder.2.1 node (List.mem_reverse.mp ?_)
    rw [order]
    exact List.mem_append_right _ List.mem_cons_self
  refine ⟨List.nodup_reverse.mpr (graph.nodup_walk seen [node] swept.distinct), ?_, ?_, ?_, ?_⟩
  · have inside := forall_mem_walk (· ∈ graph.nodes) (fun _ _ _ edge => edge.2) seen [node]
      swept.inside fun _ _ isNode => isNode
    exact fun other member => inside other (List.mem_reverse.mp member)
  · intro source member target edge
    exact List.mem_reverse.mpr (keepsEdges source (List.mem_reverse.mp member) target edge)
  · intro other
    have split := List.prefix_iff_eq_append.mp (graph.prefix_walk seen [node])
    rw [List.length_reverse, swept.drop_walk_eq_component order fresh] at split
    rw [List.mem_reverse, ← split, List.mem_append, List.mem_reverse, swept.members other]
    simp [or_and_right, exists_or]
  · intro other member
    refine List.mem_reverse.mpr ?_
    rcases List.mem_append.mp member with before | last
    · exact keepsSeen other (swept.covered other before)
    · rw [List.mem_singleton.mp last]
      exact keepsPending node List.mem_cons_self isNode

theorem componentsFrom_eq
    {rest : List String}
    (swept : graph.Swept earlier found seen)
    (order : graph.reversed.finishingOrder.reverse = earlier ++ rest) :
    graph.componentsFrom found rest = found ++ graph.sweep seen rest := by
  induction rest generalizing earlier found seen with
  | nil => rw [componentsFrom, sweep, List.append_nil]
  | cons node rest hypothesis =>
      have next : graph.reversed.finishingOrder.reverse = (earlier ++ [node]) ++ rest := by
        rw [order, List.append_assoc, List.singleton_append]
      have known_iff :
          (found.any fun component => component.contains node) = true ↔ node ∈ seen := by
        rw [List.any_eq_true, swept.members]
        simp
      rw [componentsFrom, sweep]
      by_cases known : node ∈ seen
      · rw [if_pos (known_iff.mpr known), if_pos known]
        exact hypothesis { swept with
          covered := List.forall_mem_append.mpr
            ⟨swept.covered, List.forall_mem_singleton.mpr known⟩ } next
      · rw [if_neg (mt known_iff.mp known), if_neg known,
          hypothesis (swept.found_component order known) next,
          swept.drop_walk_eq_component order known, List.append_assoc, List.singleton_append]

end Swept

/-- The components are what two depth-first passes find: the first over the reversed graph, the
second from the nodes that the first leaves last. -/
theorem components_eq_sweep (graph : Graph) :
    graph.components = graph.sweep [] graph.reversed.finishingOrder.reverse := by
  have nothing : graph.Swept [] [] [] :=
    ⟨.nil, List.forall_mem_nil _, List.forall_mem_nil _, by simp, List.forall_mem_nil _⟩
  exact nothing.componentsFrom_eq (List.nil_append _).symm

end Graph
end Order
end SchemaCompiler
