-- SUMMARY: A view of the dependency graph shows what its starts reach within a number of hops.
import Mathlib
import SolutionAtlas.Graph.View
import SolutionAtlas.Proofs.Graph.Built

/-!
# What a view reaches

A view is made by a search that goes breadth first. The search keeps a list of the places it has
expanded, each with its hop, and a queue ordered by hops. Every start is in one of the two from the
beginning, and so is every target of an expanded place, no further off than one hop more. Once the
queue is empty, the expanded places are those within reach, each with a hop not above its distance.
-/

namespace SolutionAtlas

namespace ProjectGraph

variable {g : ProjectGraph} {starts : List Nat} {depth : Nat}

/-! ## Hops -/

/-- A place is so many project references away from another. -/
inductive Hops (g : ProjectGraph) (i : Nat) : Nat → Nat → Prop
  | here : Hops g i 0 i
  | next {n j t : Nat} :
      Hops g i n j → ⟨j, t, .projectReference⟩ ∈ g.edges → Hops g i (n + 1) t

/-- A place is at most so many project references away from one of the starts. -/
def Within (g : ProjectGraph) (starts : List Nat) (n i : Nat) : Prop :=
  ∃ s ∈ starts, ∃ k ≤ n, g.Hops s k i

theorem Within.mono {n m i : Nat} (h : g.Within starts n i) (hle : n ≤ m) : g.Within starts m i := by
  obtain ⟨s, hs, k, hk, hops⟩ := h
  exact ⟨s, hs, k, hk.trans hle, hops⟩

theorem within_zero {i : Nat} : g.Within starts 0 i ↔ i ∈ starts := by
  constructor
  · rintro ⟨s, hs, k, hk, hops⟩
    obtain rfl := Nat.le_zero.mp hk
    cases hops
    exact hs
  · exact fun hi => ⟨i, hi, 0, le_rfl, .here⟩

theorem Within.next {n j t : Nat} (h : g.Within starts n j) (he : ⟨j, t, .projectReference⟩ ∈ g.edges) :
    g.Within starts (n + 1) t := by
  obtain ⟨s, hs, k, hk, hops⟩ := h
  exact ⟨s, hs, k + 1, Nat.succ_le_succ hk, hops.next he⟩

theorem mem_targets {i t : Nat} {kind : DependencyEdgeKind} :
    t ∈ g.targets i kind ↔ ⟨i, t, kind⟩ ∈ g.edges := by
  simp only [targets, List.mem_map, List.mem_filter, Bool.and_eq_true, beq_iff_eq]
  constructor
  · rintro ⟨e, ⟨he, rfl, rfl⟩, rfl⟩
    exact he
  · exact fun he => ⟨_, ⟨he, rfl, rfl⟩, rfl⟩

/-! ## Views -/

namespace View

variable {v : View}

/-- Nothing is shown twice. -/
structure Distinct (v : View) : Prop where
  nodes : v.nodes.Nodup
  edges : v.edges.Nodup

theorem mem_nodes_addNode {i j : Nat} : j ∈ (v.addNode i).nodes ↔ j ∈ v.nodes ∨ j = i := by
  rw [addNode]
  split
  · rename_i hthere
    exact ⟨.inl, fun h => h.elim id fun heq => heq ▸ List.contains_iff_mem.mp hthere⟩
  · simp

@[simp] theorem edges_addNode (v : View) (i : Nat) : (v.addNode i).edges = v.edges := by
  rw [addNode]
  split <;> rfl

theorem mem_edges_addEdge {e e' : GraphEdge} : e' ∈ (v.addEdge e).edges ↔ e' ∈ v.edges ∨ e' = e := by
  rw [addEdge]
  split
  · rename_i hthere
    exact ⟨.inl, fun h => h.elim id fun heq => heq ▸ List.contains_iff_mem.mp hthere⟩
  · simp

@[simp] theorem nodes_addEdge (v : View) (e : GraphEdge) : (v.addEdge e).nodes = v.nodes := by
  rw [addEdge]
  split <;> rfl

theorem Distinct.addNode (h : v.Distinct) (i : Nat) : (v.addNode i).Distinct := by
  refine ⟨?_, (edges_addNode v i).symm ▸ h.edges⟩
  rw [View.addNode]
  split
  · exact h.nodes
  · rename_i hnew
    exact h.nodes.append (List.nodup_singleton i) (by simpa using hnew)

theorem Distinct.addEdge (h : v.Distinct) (e : GraphEdge) : (v.addEdge e).Distinct := by
  refine ⟨(nodes_addEdge v e).symm ▸ h.nodes, ?_⟩
  rw [View.addEdge]
  split
  · exact h.edges
  · rename_i hnew
    exact h.edges.append (List.nodup_singleton e) (by simpa using hnew)

variable {source : Nat} {kind : DependencyEdgeKind} {targets : List Nat}

theorem mem_nodes_addTargets {j : Nat} :
    j ∈ (v.addTargets source kind targets).nodes ↔ j ∈ v.nodes ∨ j ∈ targets := by
  rw [addTargets]
  induction targets generalizing v with
  | nil => simp
  | cons t targets ih => rw [List.foldl_cons, ih, nodes_addEdge, mem_nodes_addNode, List.mem_cons, or_assoc]

theorem mem_edges_addTargets {e : GraphEdge} :
    e ∈ (v.addTargets source kind targets).edges ↔
      e ∈ v.edges ∨ ∃ t ∈ targets, e = ⟨source, t, kind⟩ := by
  rw [addTargets]
  induction targets generalizing v with
  | nil => simp
  | cons t targets ih =>
    rw [List.foldl_cons, ih, mem_edges_addEdge, edges_addNode, List.exists_mem_cons_iff, or_assoc]

theorem Distinct.addTargets (h : v.Distinct) : (v.addTargets source kind targets).Distinct := by
  rw [View.addTargets]
  induction targets generalizing v with
  | nil => exact h
  | cons t targets ih => exact ih ((h.addNode t).addEdge _)

/-- Shows a place, its project references unless it is as far as the view goes, and its packages if it
is a start. -/
def expand (g : ProjectGraph) (depth : Nat) (v : View) (i hop : Nat) : View :=
  let v := v.addNode i
  let v := if hop == 0 then v.addTargets i .packageReference (g.packages i) else v
  if hop < depth then v.addTargets i .projectReference (g.projectReferences i) else v

/-- The place is shown once another one is expanded. -/
def ShowsNode (g : ProjectGraph) (depth : Nat) (p : Nat × Nat) (j : Nat) : Prop :=
  j = p.1 ∨ (p.2 = 0 ∧ ⟨p.1, j, .packageReference⟩ ∈ g.edges) ∨
    (p.2 < depth ∧ ⟨p.1, j, .projectReference⟩ ∈ g.edges)

/-- The edge is shown once a place is expanded. -/
def ShowsEdge (g : ProjectGraph) (depth : Nat) (p : Nat × Nat) (e : GraphEdge) : Prop :=
  e ∈ g.edges ∧ e.source = p.1 ∧
    ((p.2 = 0 ∧ e.kind = .packageReference) ∨ (p.2 < depth ∧ e.kind = .projectReference))

theorem mem_nodes_expand {i hop j : Nat} :
    j ∈ (v.expand g depth i hop).nodes ↔ j ∈ v.nodes ∨ ShowsNode g depth (i, hop) j := by
  have hfirst : ∀ w : View,
      j ∈ (if hop == 0 then w.addTargets i .packageReference (g.packages i) else w).nodes ↔
        j ∈ w.nodes ∨ (hop = 0 ∧ ⟨i, j, .packageReference⟩ ∈ g.edges) := by
    intro w
    split <;> rename_i hhop <;> simp_all [mem_nodes_addTargets, packages, mem_targets]
  rw [expand]
  split
  · rename_i hlt
    rw [mem_nodes_addTargets, hfirst, mem_nodes_addNode, projectReferences, mem_targets]
    simp only [ShowsNode, hlt, true_and, or_assoc]
  · rename_i hge
    rw [hfirst, mem_nodes_addNode]
    simp only [ShowsNode, hge, false_and, or_false, or_assoc]

theorem mem_edges_expand {i hop : Nat} {e : GraphEdge} :
    e ∈ (v.expand g depth i hop).edges ↔ e ∈ v.edges ∨ ShowsEdge g depth (i, hop) e := by
  have htargets : ∀ kind, (∃ t ∈ g.targets i kind, e = ⟨i, t, kind⟩) ↔
      e ∈ g.edges ∧ e.source = i ∧ e.kind = kind := by
    intro kind
    simp only [mem_targets]
    constructor
    · rintro ⟨t, ht, rfl⟩
      exact ⟨ht, rfl, rfl⟩
    · rintro ⟨he, rfl, rfl⟩
      exact ⟨e.target, he, rfl⟩
  have hfirst : ∀ w : View,
      e ∈ (if hop == 0 then w.addTargets i .packageReference (g.packages i) else w).edges ↔
        e ∈ w.edges ∨ (hop = 0 ∧ e ∈ g.edges ∧ e.source = i ∧ e.kind = .packageReference) := by
    intro w
    split <;> rename_i hhop <;> simp_all [mem_edges_addTargets, packages]
  rw [expand]
  split
  · rename_i hlt
    rw [mem_edges_addTargets, hfirst, edges_addNode, projectReferences, htargets]
    simp only [ShowsEdge, hlt, true_and]
    tauto
  · rename_i hge
    rw [hfirst, edges_addNode]
    simp only [ShowsEdge, hge, false_and, or_false]
    tauto

theorem Distinct.expand (h : v.Distinct) (i hop : Nat) : (v.expand g depth i hop).Distinct := by
  have hnode := h.addNode i
  rw [View.expand]
  split
  · split
    · exact hnode.addTargets.addTargets
    · exact hnode.addTargets
  · split
    · exact hnode.addTargets
    · exact hnode

/-- The view shows what the expanded places show, and nothing twice. -/
structure Shows (g : ProjectGraph) (depth : Nat) (v : View) (done : List (Nat × Nat)) : Prop where
  distinct : v.Distinct
  mem_nodes : ∀ j, j ∈ v.nodes ↔ ∃ p ∈ done, ShowsNode g depth p j
  mem_edges : ∀ e, e ∈ v.edges ↔ ∃ p ∈ done, ShowsEdge g depth p e

theorem Shows.empty (g : ProjectGraph) (depth : Nat) : Shows g depth {} [] where
  distinct := ⟨List.nodup_nil, List.nodup_nil⟩
  mem_nodes := by simp
  mem_edges := by simp

theorem Shows.expand {done : List (Nat × Nat)} (h : Shows g depth v done) (i hop : Nat) :
    Shows g depth (v.expand g depth i hop) ((i, hop) :: done) where
  distinct := h.distinct.expand i hop
  mem_nodes j := by
    rw [mem_nodes_expand, h.mem_nodes, List.exists_mem_cons_iff]
    exact or_comm
  mem_edges e := by
    rw [mem_edges_expand, h.mem_edges, List.exists_mem_cons_iff]
    exact or_comm

end View

/-! ## The search -/

/-- What is put into the queue when a place is expanded. -/
def ahead (g : ProjectGraph) (depth : Nat) (visited : List Nat) (i hop : Nat) : List (Nat × Nat) :=
  if hop < depth then
    ((g.projectReferences i).filter (!visited.contains ·)).map fun r => (r, hop + 1)
  else []

theorem visit_cons (fuel : Nat) (visited : List Nat) (v : View) (i hop : Nat)
    (queue : List (Nat × Nat)) :
    g.visit depth (fuel + 1) visited v ((i, hop) :: queue) =
      if visited.contains i then g.visit depth fuel visited v queue
      else g.visit depth fuel (i :: visited) (v.expand g depth i hop)
        (queue ++ g.ahead depth (i :: visited) i hop) := by
  rw [visit]
  split
  · rfl
  · rw [View.expand, ahead]
    dsimp only
    split
    · rfl
    · rw [List.append_nil]

theorem mem_ahead {visited : List Nat} {i hop : Nat} {p : Nat × Nat} :
    p ∈ g.ahead depth visited i hop ↔
      hop < depth ∧ ⟨i, p.1, .projectReference⟩ ∈ g.edges ∧ p.1 ∉ visited ∧ p.2 = hop + 1 := by
  rw [ahead]
  split
  · rename_i hlt
    simp only [List.mem_map, List.mem_filter, projectReferences, mem_targets]
    constructor
    · rintro ⟨t, ⟨ht, hnew⟩, rfl⟩
      exact ⟨hlt, ht, by simpa using hnew, rfl⟩
    · rintro ⟨-, ht, hnew, hhop⟩
      exact ⟨p.1, ⟨ht, by simpa using hnew⟩, Prod.ext rfl hhop.symm⟩
  · rename_i hge
    simp [hge]

/-- The number of edges that leave places which are not expanded. -/
def pending (g : ProjectGraph) (visited : List Nat) : Nat :=
  g.edges.countP fun e => e.source ∉ visited

theorem length_ahead_le {visited : List Nat} {i : Nat} (hop : Nat) (hnew : i ∉ visited) :
    (g.ahead depth (i :: visited) i hop).length + g.pending (i :: visited) ≤ g.pending visited := by
  have hahead : (g.ahead depth (i :: visited) i hop).length ≤ g.edges.countP (·.source == i) := by
    rw [ahead]
    split
    · rw [List.length_map]
      refine (List.length_filter_le _ _).trans ?_
      rw [projectReferences, targets, List.length_map, ← List.countP_eq_length_filter]
      exact List.countP_mono_left fun e _ he => (Bool.and_eq_true_iff.mp he).1
    · exact Nat.zero_le _
  have hsplit : g.edges.countP (·.source == i) + g.pending (i :: visited) = g.pending visited := by
    have hone : ∀ e : GraphEdge, (if e.source = i then 1 else 0) +
        (if e.source ∉ i :: visited then 1 else 0) = if e.source ∉ visited then 1 else 0 := by
      intro e
      by_cases he : e.source = i
      · simp [he, hnew]
      · simp [he]
    rw [pending, pending]
    induction g.edges with
    | nil => rfl
    | cons e edges ih =>
      have he := hone e
      simp only [List.countP_cons, decide_eq_true_eq, beq_iff_eq]
      omega
  omega

/-- The place is expanded by the hop or earlier, or waits in the queue for it. -/
def Known (done queue : List (Nat × Nat)) (i hop : Nat) : Prop :=
  (∃ h ≤ hop, (i, h) ∈ done) ∨ ∃ h ≤ hop, (i, h) ∈ queue

/-- What holds of the expanded places and the queue all along the search. -/
structure Search (g : ProjectGraph) (starts : List Nat) (depth : Nat)
    (done queue : List (Nat × Nat)) : Prop where
  reached : ∀ p ∈ done ++ queue, p.2 ≤ depth ∧ g.Within starts p.2 p.1
  starts_known : ∀ s ∈ starts, Known done queue s 0
  targets_known : ∀ p ∈ done, p.2 < depth → ∀ t, ⟨p.1, t, .projectReference⟩ ∈ g.edges →
    Known done queue t (p.2 + 1)
  ordered : queue.Pairwise fun p q => p.2 ≤ q.2
  close : ∀ p ∈ queue, ∀ q ∈ queue, q.2 ≤ p.2 + 1
  behind : ∀ p ∈ done, ∀ q ∈ queue, p.2 ≤ q.2

namespace Search

variable {done queue : List (Nat × Nat)} {i hop : Nat}

theorem start (g : ProjectGraph) (starts : List Nat) (depth : Nat) :
    g.Search starts depth [] (starts.map fun i => (i, 0)) where
  reached p hp := by
    obtain ⟨s, hs, rfl⟩ := List.mem_map.mp hp
    exact ⟨Nat.zero_le depth, within_zero.mpr hs⟩
  starts_known s hs := .inr ⟨0, le_rfl, List.mem_map_of_mem hs⟩
  targets_known := by simp
  ordered := List.pairwise_map.mpr (List.pairwise_of_forall fun _ _ => le_rfl)
  close := by simp
  behind := by simp

/-- A place that is taken from the queue again is known by what was expanded before. -/
theorem skip (h : g.Search starts depth done ((i, hop) :: queue)) (hdone : i ∈ done.map Prod.fst) :
    g.Search starts depth done queue := by
  have hknown : ∀ {j n}, Known done ((i, hop) :: queue) j n → Known done queue j n := by
    rintro j n (hold | ⟨k, hk, hmem⟩)
    · exact .inl hold
    · rcases List.mem_cons.mp hmem with heq | htail
      · obtain ⟨rfl, rfl⟩ := Prod.mk.inj heq
        obtain ⟨⟨i, k'⟩, hp, rfl⟩ := List.mem_map.mp hdone
        exact .inl ⟨k', (h.behind _ hp _ List.mem_cons_self).trans hk, hp⟩
      · exact .inr ⟨k, hk, htail⟩
  refine ⟨fun p hp => h.reached p ?_, fun s hs => hknown (h.starts_known s hs),
    fun p hp hlt t ht => hknown (h.targets_known p hp hlt t ht), (List.pairwise_cons.mp h.ordered).2,
    fun p hp q hq => h.close p (List.mem_cons_of_mem _ hp) q (List.mem_cons_of_mem _ hq),
    fun p hp q hq => h.behind p hp q (List.mem_cons_of_mem _ hq)⟩
  rcases List.mem_append.mp hp with hp | hp
  · exact List.mem_append_left _ hp
  · exact List.mem_append_right _ (List.mem_cons_of_mem _ hp)

/-- A place that is expanded is known, and so are its targets, if they are not too far. -/
theorem expand (h : g.Search starts depth done ((i, hop) :: queue)) :
    g.Search starts depth ((i, hop) :: done)
      (queue ++ g.ahead depth (i :: done.map Prod.fst) i hop) := by
  have hhead : hop ≤ depth ∧ g.Within starts hop i := h.reached (i, hop) (by simp)
  have hfirst : ∀ q ∈ queue, hop ≤ q.2 := (List.pairwise_cons.mp h.ordered).1
  have hnear : ∀ q ∈ queue, q.2 ≤ hop + 1 := fun q hq =>
    h.close _ List.mem_cons_self q (List.mem_cons_of_mem _ hq)
  have hdone : ∀ p ∈ done, p.2 ≤ hop := fun p hp => h.behind p hp _ List.mem_cons_self
  have hknown : ∀ {j n}, Known done ((i, hop) :: queue) j n →
      Known ((i, hop) :: done) (queue ++ g.ahead depth (i :: done.map Prod.fst) i hop) j n := by
    rintro j n (⟨k, hk, hmem⟩ | ⟨k, hk, hmem⟩)
    · exact .inl ⟨k, hk, List.mem_cons_of_mem _ hmem⟩
    · rcases List.mem_cons.mp hmem with heq | htail
      · exact .inl ⟨k, hk, heq ▸ List.mem_cons_self⟩
      · exact .inr ⟨k, hk, List.mem_append_left _ htail⟩
  refine ⟨fun p hp => ?_, fun s hs => hknown (h.starts_known s hs), fun p hp hlt t ht => ?_, ?_,
    fun p hp q hq => ?_, fun p hp q hq => ?_⟩
  · rcases List.mem_append.mp hp with hp | hp
    · rcases List.mem_cons.mp hp with rfl | hp
      · exact hhead
      · exact h.reached p (List.mem_append_left _ hp)
    · rcases List.mem_append.mp hp with hp | hp
      · exact h.reached p (List.mem_append_right _ (List.mem_cons_of_mem _ hp))
      · obtain ⟨hlt, he, -, hhop⟩ := mem_ahead.mp hp
        exact hhop ▸ ⟨hlt, hhead.2.next he⟩
  · rcases List.mem_cons.mp hp with rfl | hp
    · -- A target that is not put into the queue has been expanded before, or is the place itself.
      by_cases hold : t ∈ i :: done.map Prod.fst
      · rcases List.mem_cons.mp hold with rfl | hold
        · exact .inl ⟨hop, Nat.le_succ hop, List.mem_cons_self⟩
        · obtain ⟨⟨t, k⟩, hmem, rfl⟩ := List.mem_map.mp hold
          exact .inl ⟨k, (hdone _ hmem).trans (Nat.le_succ hop), List.mem_cons_of_mem _ hmem⟩
      · exact .inr ⟨hop + 1, le_rfl,
          List.mem_append_right _ (mem_ahead.mpr ⟨hlt, ht, hold, rfl⟩)⟩
    · exact hknown (h.targets_known p hp hlt t ht)
  · refine List.pairwise_append.mpr ⟨(List.pairwise_cons.mp h.ordered).2, ?_, fun p hp q hq => ?_⟩
    · have htrivial : (g.ahead depth (i :: done.map Prod.fst) i hop).Pairwise fun _ _ => True :=
        List.pairwise_of_forall fun _ _ => trivial
      refine htrivial.imp_of_mem fun hp hq _ => ?_
      exact ((mem_ahead.mp hp).2.2.2.trans (mem_ahead.mp hq).2.2.2.symm).le
    · exact (hnear p hp).trans (mem_ahead.mp hq).2.2.2.ge
  · have hlow : hop ≤ p.2 := by
      rcases List.mem_append.mp hp with hp | hp
      · exact hfirst p hp
      · exact (mem_ahead.mp hp).2.2.2 ▸ Nat.le_succ hop
    have hhigh : q.2 ≤ hop + 1 := by
      rcases List.mem_append.mp hq with hq | hq
      · exact hnear q hq
      · exact (mem_ahead.mp hq).2.2.2.le
    exact hhigh.trans (Nat.succ_le_succ hlow)
  · have hlow : p.2 ≤ hop := by
      rcases List.mem_cons.mp hp with rfl | hp
      · exact le_rfl
      · exact hdone p hp
    refine hlow.trans ?_
    rcases List.mem_append.mp hq with hq | hq
    · exact hfirst q hq
    · exact (mem_ahead.mp hq).2.2.2 ▸ Nat.le_succ hop

/-- Once the queue is empty, all that is within reach is expanded, by its distance or earlier. -/
theorem exists_of_within (h : g.Search starts depth done []) {n i : Nat} (hn : n ≤ depth)
    (hi : g.Within starts n i) : ∃ k ≤ n, (i, k) ∈ done := by
  have hdone : ∀ {j n}, Known done [] j n → ∃ k ≤ n, (j, k) ∈ done := by
    rintro j n (hmem | ⟨k, -, hmem⟩)
    · exact hmem
    · cases hmem
  obtain ⟨s, hs, m, hm, hops⟩ := hi
  suffices ∃ k ≤ m, (i, k) ∈ done by
    obtain ⟨k, hk, hmem⟩ := this
    exact ⟨k, hk.trans hm, hmem⟩
  replace hn := hm.trans hn
  clear hm
  induction hops with
  | here => exact hdone (h.starts_known s hs)
  | @next m j t _ he ih =>
    obtain ⟨k, hk, hmem⟩ := ih (by omega)
    obtain ⟨k', hk', hmem'⟩ := hdone (h.targets_known (j, k) hmem (by dsimp only; omega) t he)
    exact ⟨k', hk'.trans (Nat.succ_le_succ hk), hmem'⟩

end Search

/-- The search comes to an end, and its view shows what it has expanded. -/
theorem visit_ends {fuel : Nat} {visited : List Nat} {v : View} {done queue : List (Nat × Nat)}
    (hfuel : queue.length + g.pending visited ≤ fuel) (hvisited : visited = done.map Prod.fst)
    (hsearch : g.Search starts depth done queue) (hshows : v.Shows g depth done) :
    ∃ done', g.Search starts depth done' [] ∧
      (g.visit depth fuel visited v queue).Shows g depth done' := by
  induction fuel generalizing visited v done queue with
  | zero =>
    obtain rfl : queue = [] := List.length_eq_zero_iff.mp (by omega)
    exact ⟨done, hsearch, hshows⟩
  | succ fuel ih =>
    cases queue with
    | nil => exact ⟨done, hsearch, hshows⟩
    | cons p queue =>
      obtain ⟨i, hop⟩ := p
      rw [List.length_cons] at hfuel
      rw [visit_cons]
      split
      · rename_i hold
        exact ih (by omega) hvisited
          (hsearch.skip (hvisited ▸ List.contains_iff_mem.mp hold)) hshows
      · rename_i hnew
        have hlength : (g.ahead depth (i :: visited) i hop).length + g.pending (i :: visited) ≤
            g.pending visited := length_ahead_le hop (by simpa using hnew)
        have hvisited' : i :: visited = ((i, hop) :: done).map Prod.fst := by rw [hvisited]; rfl
        refine ih ?_ hvisited' (hvisited ▸ hsearch.expand) (hshows.expand i hop)
        rw [List.length_append]
        omega

end ProjectGraph

end SolutionAtlas
