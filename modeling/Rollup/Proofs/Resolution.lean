import Mathlib.Data.List.Nodup
import Mathlib.Tactic.SplitIfs
import Rollup.Proofs.Store.WellFormed
import Rollup.Resolution

/-!
# Resolving the references of a project

Resolving looks every node up in one directory, made before the first write. In a well-formed store
no write fails, so the nodes of the project are rewritten one by one and all others stay. A second
pass finds nothing to do.

Results:

* `project_report`: the store after resolving, and the report.
* `wellFormed_project`: that store is well-formed.
* `repeats_rewrite`: a rewritten node has nothing left to resolve, and gives the same warnings.
* `project_repeats`: resolving a resolved project changes nothing and repeats the warnings.
-/

namespace Rollup.Resolution

/-! ## Reports -/

/-- What resolving the nodes of a list reports. -/
def tally (d : Directory) (nodes : List Node) : ResolutionReport :=
  { nodesUpdated := nodes.countP fun n => (d.resolveNode n).count ≠ 0
    referencesResolved := nodes.foldr (fun n total => (d.resolveNode n).count + total) 0
    warnings := nodes.flatMap fun n => (d.resolveNode n).warnings }

/-- Two reports as one. -/
def merge (r r' : ResolutionReport) : ResolutionReport :=
  { nodesUpdated := r.nodesUpdated + r'.nodesUpdated
    referencesResolved := r.referencesResolved + r'.referencesResolved
    warnings := r.warnings ++ r'.warnings }

theorem merge_tally_cons (d : Directory) (n : Node) (nodes : List Node) (r : ResolutionReport) :
    merge (merge r (tally d [n])) (tally d nodes) = merge r (tally d (n :: nodes)) := by
  simp only [merge, tally, List.countP_cons, List.countP_nil, List.foldr_cons, List.foldr_nil,
    List.flatMap_cons, List.flatMap_nil, List.append_nil, List.append_assoc]
  congr 1 <;> omega

theorem merge_empty (r : ResolutionReport) : merge {} r = r := by
  simp [merge]

/-! ## Rewritten nodes -/

/-- A node after its references have been resolved: as it was if none was replaced. -/
def rewrite (d : Directory) (n : Node) : Node :=
  if (d.resolveNode n).count = 0 then n else (d.resolveNode n).value.kept

/-- The nodes of a project are rewritten, all others stay. -/
def rewriteIn (project : String) (d : Directory) (n : Node) : Node :=
  if n.projectId = project then rewrite d n else n

section Rewrite

variable (d : Directory) (n : Node)

@[simp] theorem place_rewrite : (rewrite d n).place = n.place := by
  unfold rewrite
  split_ifs <;> rfl

@[simp] theorem id_rewrite : (rewrite d n).id = n.id :=
  congrArg Node.Place.id (place_rewrite d n)

@[simp] theorem hierarchyId_rewrite : (rewrite d n).hierarchyId = n.hierarchyId :=
  congrArg Node.Place.hierarchyId (place_rewrite d n)

@[simp] theorem projectId_rewrite : (rewrite d n).projectId = n.projectId :=
  congrArg Node.Place.projectId (place_rewrite d n)

@[simp] theorem name_rewrite : (rewrite d n).name = n.name := by
  unfold rewrite
  split_ifs <;> rfl

@[simp] theorem levelPath_rewrite : (rewrite d n).levelPath = n.levelPath := by
  unfold rewrite
  split_ifs <;> rfl

@[simp] theorem place_rewriteIn (project : String) : (rewriteIn project d n).place = n.place := by
  unfold rewriteIn
  split_ifs
  · exact place_rewrite d n
  · rfl

end Rewrite

theorem childrenIn_rewrite {ids : List String} {d : Directory} {n : Node} (h : n.ChildrenIn ids)
    (within : ∀ r ∈ d, r.hierarchyId ∈ ids) : (rewrite d n).ChildrenIn ids := by
  unfold rewrite
  split_ifs
  · exact h
  · exact Node.childrenIn_kept (d.childrenIn_resolveNode h within)

/-- A rewritten node has nothing left to resolve, and gives the same warnings. -/
theorem repeats_rewrite {d : Directory} (trimmed : d.Trimmed) (n : Node) :
    (d.resolveNode (rewrite d n)).Repeats (d.resolveNode n) := by
  unfold rewrite
  split_ifs with nothing
  · exact ⟨nothing, rfl⟩
  · exact Directory.resolveNode_again trimmed rfl rfl (Node.total?_kept _)

/-- What resolving rewritten nodes reports. -/
theorem tally_rewrite {d : Directory} (trimmed : d.Trimmed) (nodes : List Node) :
    tally d (nodes.map (rewrite d)) = { warnings := (tally d nodes).warnings } := by
  have nothing : ∀ n, (d.resolveNode (rewrite d n)).count = 0 := fun n =>
    (repeats_rewrite trimmed n).count
  simp only [tally, List.countP_map, List.foldr_map, List.flatMap_map, Function.comp_def, nothing]
  simp [(repeats_rewrite trimmed _).warnings]

/-! ## One node after the other -/

/-- Resolving one stored node rewrites it and leaves all others alone. -/
theorem resolveOne_eq (d : Directory) {s : Store} {n : Node} (mem : n ∈ s.nodes)
    (ids : (s.nodes.map (·.id)).Nodup)
    (keys : ((s.nodesOf n.projectId).map (·.hierarchyId)).Nodup) (report : ResolutionReport) :
    resolveOne .permissive d (s, report) n =
      ({ s with nodes := s.nodes.map fun m => if m.id = n.id then rewrite d m else m },
        merge report (tally d [n])) := by
  have same : ∀ m ∈ s.nodes, m.id = n.id → m = n := fun m hm hid =>
    List.inj_on_of_nodup_map ids hm mem hid
  unfold resolveOne
  dsimp only
  split_ifs with nothing
  · refine Prod.ext ?_ (by simp [merge, tally, nothing])
    have stays : (s.nodes.map fun m => if m.id = n.id then rewrite d m else m) = s.nodes := by
      nth_rewrite 2 [← List.map_id s.nodes]
      refine List.map_congr_left fun m hm => ?_
      split_ifs with hid
      · rw [same m hm hid, rewrite, if_pos nothing]
        rfl
      · rfl
    rw [stays]
  · have free : ∀ m ∈ s.nodesOf n.projectId,
        m.hierarchyId = (d.resolveNode n).value.hierarchyId → m.id = (d.resolveNode n).value.id := by
      intro m hm hkey
      rw [List.inj_on_of_nodup_map keys hm (Store.mem_nodesOf.mpr ⟨mem, rfl⟩) hkey]
      rfl
    have written := Store.update_stored (n := (d.resolveNode n).value) mem rfl ids free
    rw [Store.guardedUpdate, WriteGuard.permissive, written]
    refine Prod.ext ?_ (by simp [merge, tally, nothing])
    have nodes : (s.nodes.map fun m => if m.id = (d.resolveNode n).value.id then
        { (d.resolveNode n).value.kept with projectId := m.projectId } else m) =
        s.nodes.map fun m => if m.id = n.id then rewrite d m else m := by
      refine List.map_congr_left fun m hm => ?_
      rw [Directory.resolveNode_id]
      split_ifs with hid
      · obtain rfl := same m hm hid
        rw [rewrite, if_neg nothing]
        rfl
      · rfl
    rw [nodes]

theorem foldl_resolveOne (d : Directory) {project : String} (todo : List Node) :
    ∀ (s : Store) (report : ResolutionReport), (∀ n ∈ todo, n ∈ s.nodesOf project) →
      (todo.map (·.id)).Nodup → (s.nodes.map (·.id)).Nodup →
      ((s.nodesOf project).map (·.hierarchyId)).Nodup →
      todo.foldl (resolveOne .permissive d) (s, report) =
        ({ s with nodes := s.nodes.map fun m =>
            if m.id ∈ todo.map (·.id) then rewrite d m else m }, merge report (tally d todo)) := by
  induction todo with
  | nil =>
    intro s report _ _ _ _
    simp [merge, tally]
  | cons n todo ih =>
    intro s report mem distinct ids keys
    obtain ⟨hn, hproject⟩ := Store.mem_nodesOf.mp (mem n (by simp))
    rw [List.map_cons, List.nodup_cons] at distinct
    have step := resolveOne_eq d hn ids (hproject ▸ keys) report
    set f : Node → Node := fun m => if m.id = n.id then rewrite d m else m with hf
    have places : ∀ m ∈ s.nodes, (f m).place = m.place := by
      intro m _
      rw [hf]
      dsimp only
      split_ifs
      · exact place_rewrite d m
      · rfl
    have id : ∀ m ∈ s.nodes, (f m).id = m.id := fun m hm => congrArg Node.Place.id (places m hm)
    have run := ih { s with nodes := s.nodes.map f } (merge report (tally d [n]))
      (by
        intro m hm
        obtain ⟨hm', hproject'⟩ := Store.mem_nodesOf.mp (mem m (by simp [hm]))
        refine Store.mem_nodesOf.mpr ⟨List.mem_map.mpr ⟨m, hm', ?_⟩, hproject'⟩
        have ne : m.id ≠ n.id := fun e => distinct.1 (e ▸ List.mem_map_of_mem hm)
        rw [hf]
        dsimp only
        rw [if_neg ne])
      distinct.2
      (by
        rw [List.map_map]
        have : s.nodes.map ((fun m : Node => m.id) ∘ f) = s.nodes.map (·.id) :=
          List.map_congr_left id
        rw [this]
        exact ids)
      (by
        rw [Store.map_hierarchyId_nodesOf rfl places]
        exact keys)
    rw [List.foldl_cons, step, run, merge_tally_cons]
    refine Prod.ext ?_ rfl
    have nodes : (s.nodes.map f).map (fun m => if m.id ∈ todo.map (·.id) then rewrite d m else m) =
        s.nodes.map fun m =>
          if m.id ∈ (n :: todo).map (·.id) then rewrite d m else m := by
      rw [List.map_map]
      refine List.map_congr_left fun m hm => ?_
      rw [Function.comp_apply, id m hm, List.map_cons, hf]
      dsimp only
      by_cases same : m.id = n.id
      · have gone : n.id ∉ todo.map (·.id) := distinct.1
        rw [if_neg (same ▸ gone), if_pos same, if_pos (by simp [same])]
      · rw [if_neg same]
        simp [same]
    rw [nodes]

/-! ## The project -/

/-- The store after resolving, in which every node of the project is rewritten, and the report. -/
theorem project_report {s : Store} (h : s.WellFormed) {project : String}
    (known : s.hasProject project = true) :
    Resolution.project .permissive s project =
      .ok ({ s with
        nodes := s.nodes.map (rewriteIn project (Directory.ofNodes (s.nodesOf project))) },
        tally (Directory.ofNodes (s.nodesOf project)) (s.nodesOf project)) := by
  set d := Directory.ofNodes (s.nodesOf project)
  have distinct : ((s.nodesOf project).map (·.id)).Nodup :=
    h.ids.sublist (List.filter_sublist.map _)
  have run := foldl_resolveOne d (s.nodesOf project) s {} (fun n hn => hn) distinct h.ids
    (h.keys project)
  unfold Resolution.project
  rw [if_pos known]
  dsimp only
  rw [run, merge_empty]
  have nodes : (s.nodes.map fun m =>
      if m.id ∈ (s.nodesOf project).map (·.id) then rewrite d m else m) =
      s.nodes.map (rewriteIn project d) := by
    refine List.map_congr_left fun m hm => ?_
    have iff : m.id ∈ (s.nodesOf project).map (·.id) ↔ m.projectId = project := by
      constructor
      · intro mem
        obtain ⟨n, hn, hid⟩ := List.mem_map.mp mem
        obtain ⟨hn, hproject⟩ := Store.mem_nodesOf.mp hn
        rw [← List.inj_on_of_nodup_map h.ids hn hm hid]
        exact hproject
      · intro hproject
        exact List.mem_map_of_mem (Store.mem_nodesOf.mpr ⟨hm, hproject⟩)
    rw [rewriteIn]
    simp only [iff]
  rw [nodes]

theorem project_eq {s : Store} (h : s.WellFormed) {project : String}
    (known : s.hasProject project = true) :
    ∃ report, Resolution.project .permissive s project =
      .ok ({ s with
        nodes := s.nodes.map (rewriteIn project (Directory.ofNodes (s.nodesOf project))) },
        report) :=
  ⟨_, project_report h known⟩

theorem mem_directory {nodes : List Node} {r : Referent} (h : r ∈ Directory.ofNodes nodes) :
    ∃ n ∈ nodes, r.hierarchyId = n.hierarchyId := by
  obtain ⟨n, hn, rfl⟩ := List.mem_map.mp h
  exact ⟨n, hn, rfl⟩

/-- Rewriting the nodes of a project keeps a store well-formed. -/
theorem wellFormed_rewrite {s t : Store} (h : s.WellFormed) {project : String}
    (nodes : t.nodes = s.nodes.map
      (rewriteIn project (Directory.ofNodes (s.nodesOf project)))) : t.WellFormed := by
  refine h.map nodes (fun n _ => place_rewriteIn _ n project) ?_
  intro n hn
  unfold rewriteIn
  split_ifs with hproject
  · refine childrenIn_rewrite (h.totals n hn) ?_
    intro r hr
    obtain ⟨m, hm, same⟩ := mem_directory hr
    rw [same, hproject]
    exact List.mem_map_of_mem hm
  · exact h.totals n hn

theorem wellFormed_project {s t : Store} (h : s.WellFormed) {project : String}
    {report : ResolutionReport}
    (resolved : Resolution.project .permissive s project = .ok (t, report)) : t.WellFormed := by
  by_cases known : s.hasProject project = true
  · obtain ⟨report', eq⟩ := project_eq h known
    rw [eq] at resolved
    cases resolved
    exact wellFormed_rewrite h rfl
  · rw [Resolution.project, if_neg known] at resolved
    cases resolved

theorem trimmed_directory {s : Store} (h : s.WellFormed) (project : String) :
    (Directory.ofNodes (s.nodesOf project)).Trimmed := by
  intro r hr
  obtain ⟨n, hn, same⟩ := mem_directory hr
  rw [same]
  exact h.trimmed n (Store.mem_nodesOf.mp hn).1

/-! ## A second time -/

section Again

variable {s t : Store} {project : String}

theorem nodesOf_rewrite
    (nodes : t.nodes = s.nodes.map (rewriteIn project (Directory.ofNodes (s.nodesOf project)))) :
    t.nodesOf project =
      (s.nodesOf project).map (rewrite (Directory.ofNodes (s.nodesOf project))) := by
  rw [Store.nodesOf_map nodes fun n _ => congrArg Node.Place.projectId (place_rewriteIn _ n project)]
  refine List.map_congr_left fun n hn => ?_
  rw [rewriteIn, if_pos (Store.mem_nodesOf.mp hn).2]

theorem directory_rewrite
    (nodes : t.nodes = s.nodes.map (rewriteIn project (Directory.ofNodes (s.nodesOf project)))) :
    Directory.ofNodes (t.nodesOf project) = Directory.ofNodes (s.nodesOf project) := by
  rw [nodesOf_rewrite nodes, Directory.ofNodes, List.map_map]
  refine List.map_congr_left fun n _ => ?_
  simp only [Function.comp_apply, hierarchyId_rewrite, name_rewrite]

/-- Resolving a resolved project changes nothing and repeats the warnings. -/
theorem project_repeats (h : s.WellFormed) (known : t.hasProject project = true)
    (nodes : t.nodes = s.nodes.map (rewriteIn project (Directory.ofNodes (s.nodesOf project)))) :
    Resolution.project .permissive t project = .ok (t, { warnings :=
      (tally (Directory.ofNodes (s.nodesOf project)) (s.nodesOf project)).warnings }) := by
  rw [project_report (wellFormed_rewrite h nodes) known, directory_rewrite nodes,
    nodesOf_rewrite nodes, tally_rewrite (trimmed_directory h project)]
  have stays : t.nodes.map (rewriteIn project (Directory.ofNodes (s.nodesOf project))) =
      t.nodes := by
    nth_rewrite 2 [← List.map_id t.nodes]
    refine List.map_congr_left fun n hn => ?_
    rw [nodes] at hn
    obtain ⟨m, -, rfl⟩ := List.mem_map.mp hn
    set d := Directory.ofNodes (s.nodesOf project)
    by_cases inProject : m.projectId = project
    · have first : rewriteIn project d m = rewrite d m := if_pos inProject
      have second : rewriteIn project d (rewrite d m) = rewrite d (rewrite d m) :=
        if_pos (by simpa using inProject)
      rw [first, second, rewrite, if_pos (repeats_rewrite (trimmed_directory h project) m).count]
      rfl
    · have first : rewriteIn project d m = m := if_neg inProject
      rw [first, first]
      rfl
  rw [stays]

theorem project_again (h : s.WellFormed) (known : t.hasProject project = true)
    (nodes : t.nodes = s.nodes.map (rewriteIn project (Directory.ofNodes (s.nodesOf project)))) :
    ∃ report, Resolution.project .permissive t project = .ok (t, report) :=
  ⟨_, project_repeats h known nodes⟩

end Again

end Rollup.Resolution
