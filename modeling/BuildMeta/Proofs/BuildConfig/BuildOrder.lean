import BuildMeta.Proofs.BuildConfig.Failures
import BuildMeta.Proofs.BuildConfig.LoadOrder
import BuildMeta.Proofs.Digraph.TopologicalOrder
import Mathlib

/-!
# `Proofs.BuildConfig.BuildOrder` — what is configured can be built in turn

The graphs of a configuration have no edges that the graphs of the repository lack.  So if the check of
the repository finds no cycles, the configured units of release, and the packages of each group, can be
ordered such that each comes after what it depends on: `make_buildOrder`.
-/

namespace BuildMeta.BuildConfig

variable {c : Context} {config : BuildConfig} {name m n : String} {g : GroupConfig}

/-! ## The graph of the units of release -/

/-- The units of release with their dependencies, as they stand in the graph. -/
theorem mem_releaseNodes {deps : List String} :
    (name, deps) ∈ (config.standAlones.map PackageConfig.deps).entries ++
        (config.groups.map GroupConfig.deps).entries ++
        (config.thirdParties.map fun _ => ([] : List String)).entries ↔
      (∃ p, config.standAlones.get? name = some p ∧ p.deps = deps) ∨
      (∃ g, config.groups.get? name = some g ∧ g.deps = deps) ∨
      ∃ u, config.thirdParties.get? name = some u ∧ [] = deps := by
  simp only [List.mem_append, ← Table.get?_eq_some_iff, Table.get?_map, Option.map_eq_some_iff,
    or_assoc]

theorem mem_keys_releaseGraph :
    name ∈ config.releaseGraph.keys ↔ name ∈ config.standAlones.keys ∨ name ∈ config.groups.keys ∨
      name ∈ config.thirdParties.keys := by
  unfold releaseGraph
  rw [Table.mem_keys_ofList, List.map_append, List.map_append, List.mem_append, List.mem_append,
    or_assoc]
  simp only [← Table.keys.eq_1, Table.keys_map]

/-- A node of the graph stands for a unit of release of the repository. -/
theorem Faithful.releaseNode (hf : Faithful c config) {deps : List String}
    (h : (name, deps) ∈ (config.standAlones.map PackageConfig.deps).entries ++
        (config.groups.map GroupConfig.deps).entries ++
        (config.thirdParties.map fun _ => ([] : List String)).entries) :
    ∃ u, c.releases.get? name = some u ∧
      deps = if u.kind = .thirdParty then [] else innerDeps config u := by
  rcases mem_releaseNodes.mp h with ⟨p, hp, rfl⟩ | ⟨g, hg, rfl⟩ | ⟨u, hu, rfl⟩
  · obtain ⟨u, hu, _, hthird, hdeps⟩ := hf.standAlone hp
    exact ⟨u, hu, by rw [if_neg hthird, hdeps]⟩
  · obtain ⟨u, hu, hkind, hdeps, _⟩ := hf.group hg
    exact ⟨u, hu, by rw [if_neg (by rw [hkind]; decide), hdeps]⟩
  · rw [hf.thirdParties, Table.get?_filter_eq_some_iff, beq_iff_eq] at hu
    exact ⟨u, hu.1, by rw [if_pos hu.2]⟩

/-- The edges lead from configured units to their dependencies. -/
theorem Faithful.edge_releaseGraph (hf : Faithful c config) :
    config.releaseGraph.Edge m n ↔
      (∃ p, config.standAlones.get? m = some p ∧ n ∈ p.deps) ∨
      ∃ g, config.groups.get? m = some g ∧ n ∈ g.deps := by
  unfold releaseGraph
  rw [Digraph.edge_ofList]
  · simp only [mem_releaseNodes]
    constructor
    · rintro ⟨_, ⟨p, hp, rfl⟩ | ⟨g, hg, rfl⟩ | ⟨u, _, rfl⟩, hn⟩
      · exact Or.inl ⟨p, hp, hn⟩
      · exact Or.inr ⟨g, hg, hn⟩
      · exact absurd hn List.not_mem_nil
    · rintro (⟨p, hp, hn⟩ | ⟨g, hg, hn⟩)
      · exact ⟨p.deps, Or.inl ⟨p, hp, rfl⟩, hn⟩
      · exact ⟨g.deps, Or.inr (Or.inl ⟨g, hg, rfl⟩), hn⟩
  · intro k cs cs' hcs hcs'
    obtain ⟨u, hu, rfl⟩ := hf.releaseNode hcs
    obtain ⟨v, hv, rfl⟩ := hf.releaseNode hcs'
    rw [hu, Option.some.injEq] at hv
    rw [hv]

/-- The edges are edges of the repository, between units of release of it. -/
theorem Faithful.edge_repository (hf : Faithful c config) (h : config.releaseGraph.Edge m n) :
    c.releaseGraph.Edge m n ∧ n ∈ c.releases.keys := by
  have hinner : ∃ u, c.releases.get? m = some u ∧ n ∈ innerDeps config u := by
    rcases hf.edge_releaseGraph.mp h with ⟨p, hp, hn⟩ | ⟨g, hg, hn⟩
    · obtain ⟨u, hu, _, _, hdeps⟩ := hf.standAlone hp
      exact ⟨u, hu, hdeps ▸ hn⟩
    · obtain ⟨u, hu, _, hdeps, _⟩ := hf.group hg
      exact ⟨u, hu, hdeps ▸ hn⟩
  obtain ⟨u, hu, hn⟩ := hinner
  obtain ⟨hdep, hkey⟩ := (hf.mem_innerDeps hu).mp hn
  exact ⟨Context.edge_releaseGraph.mpr ⟨u, hu, hdep⟩, hkey⟩

/-- Every node of the graph of a configuration is a unit of the repository.  Names from outside are
    no nodes, as no unit keeps them among its dependencies. -/
theorem Faithful.mem_releases_of_mem_nodes (hf : Faithful c config) (h : n ∈ config.releaseGraph.nodes) :
    n ∈ c.releases.keys := by
  rcases Digraph.mem_nodes.mp h with hkey | ⟨m, hedge⟩
  · rcases mem_keys_releaseGraph.mp hkey with h | h | h
    · obtain ⟨p, hp⟩ := Table.mem_keys_iff.mp h
      obtain ⟨u, hu, _⟩ := hf.standAlone hp
      exact Table.mem_keys_of_get? hu
    · obtain ⟨g, hg⟩ := Table.mem_keys_iff.mp h
      obtain ⟨u, hu, _⟩ := hf.group hg
      exact Table.mem_keys_of_get? hu
    · obtain ⟨u, hu⟩ := Table.mem_keys_iff.mp h
      rw [hf.thirdParties, Table.get?_filter_eq_some_iff] at hu
      exact Table.mem_keys_of_get? hu.1
  · exact (hf.edge_repository hedge).2

/-! ## The graph of a group -/

/-- The node of a package in its group: its dependencies inside the group, and a failure only if the
    package has no entry. -/
theorem memberNode_eq_ok_iff {node : String × List String} :
    config.memberNode g name = .ok node ↔
      ∃ p, config.inners.get? name = some p ∧ node = (name, p.deps.filter g.members.contains) := by
  unfold memberNode
  cases config.inners.get? name with
  | none => simp
  | some p =>
    simp only [Except.ok.injEq, Option.some.injEq]
    exact ⟨fun h => ⟨p, rfl, h.symm⟩, fun ⟨q, hq, h⟩ => by rw [h, hq]⟩

/-- The graph of a configured group can be made; its nodes are the members, and its edges lead to the
    members on which they depend. -/
theorem Faithful.exists_packageGraph (hf : Faithful c config)
    (hg : config.groups.get? name = some g) :
    ∃ graph, config.packageGraph name = .ok graph ∧ (∀ m, m ∈ graph.keys ↔ m ∈ g.members) ∧
      ∀ m n, graph.Edge m n ↔ m ∈ g.members ∧
        ∃ p, config.inners.get? m = some p ∧ n ∈ p.deps.filter g.members.contains := by
  obtain ⟨u, _, _, _, hmembers⟩ := hf.group hg
  obtain ⟨nodes, hnodes⟩ : ∃ nodes, g.members.mapM (config.memberNode g) = .ok nodes := by
    refine Failure.exists_mapM fun m hm => ?_
    obtain ⟨p, hp⟩ := Table.mem_keys_iff.mp (hmembers m hm).2
    exact ⟨_, memberNode_eq_ok_iff.mpr ⟨p, hp, rfl⟩⟩
  have hname : ∀ ⦃name node⦄, config.memberNode g name = .ok node → node.1 = name := by
    intro name node hnode
    obtain ⟨p, _, rfl⟩ := memberNode_eq_ok_iff.mp hnode
    rfl
  obtain ⟨hkeys, hedges⟩ := Digraph.ofList_of_mapM hname hnodes
  refine ⟨Table.ofList nodes, ?_, hkeys, fun m n => ?_⟩
  · unfold packageGraph
    rw [hg]
    show (g.members.mapM (config.memberNode g) >>= _) = _
    rw [hnodes, Failure.ok_bind]
    rfl
  · rw [hedges]
    refine and_congr_right fun _ => ⟨?_, ?_⟩
    · rintro ⟨cs, hnode, hn⟩
      obtain ⟨p, hp, heq⟩ := memberNode_eq_ok_iff.mp hnode
      cases heq
      exact ⟨p, hp, hn⟩
    · rintro ⟨p, hp, hn⟩
      exact ⟨_, memberNode_eq_ok_iff.mpr ⟨p, hp, rfl⟩, hn⟩

/-- The edges between the packages of a group are edges of the repository. -/
theorem Faithful.acyclic_packageGraph (hf : Faithful c config) {tree : FileTree}
    (hverified : (c.verify tree).outcome = .ok true) (hg : config.groups.get? name = some g)
    {graph : Digraph} (hedge : ∀ m n, graph.Edge m n → m ∈ g.members ∧
      ∃ p, config.inners.get? m = some p ∧ n ∈ p.deps.filter g.members.contains) :
    graph.Acyclic := by
  obtain ⟨u, hu, hkind, _, hmembers⟩ := hf.group hg
  obtain ⟨whole, hwhole, hacyc⟩ :=
    Context.exists_acyclic_of_verify hverified (Context.get?_releases.mp hu).1 hkind
  refine hacyc.of_edges fun m n h => ?_
  obtain ⟨hm, p, hp, hn⟩ := hedge m n h
  obtain ⟨q, hq, hdeps⟩ := hf.inner hp
  refine (Context.edge_packageGraph hwhole).mpr ⟨(hmembers m hm).1, q, hq, ?_⟩
  rw [← hdeps]
  exact (List.mem_filter.mp hn).1

/-! ## Orders -/

/-- A name is listed, and all of the others before it. -/
def ListedAfter (order : List String) (name : String) (others : List String) : Prop :=
  ∃ before after, order = before ++ name :: after ∧ ∀ d ∈ others, d ∈ before

theorem listedAfter_of_ordered {graph : Digraph} {order others : List String}
    (ho : graph.Ordered order) (hname : name ∈ order) (hothers : ∀ d ∈ others, graph.Edge name d) :
    ListedAfter order name others := by
  obtain ⟨before, after, heq⟩ := List.append_of_mem hname
  exact ⟨before, after, heq, fun d hd => ho.childrenFirst heq d (hothers d hd)⟩

/-- **What a checked repository is configured for can be built in turn.**  Making the configuration
    reports no cycle.  The units of release of the result have an order, in which every configured one
    stands once and after all its dependencies, and so have the packages of each configured group. -/
theorem make_buildOrder (plan : Plan) (c : Context) (tree : FileTree) (defaults : List Rule)
    (hverified : (c.verify tree).outcome = .ok true) :
    (∀ path, (make plan c defaults).outcome ≠ .error (.cycle path)) ∧
    ∀ config, (make plan c defaults).outcome = .ok config →
      (∃ order, config.releaseGraph.order = .ok order ∧ order.Nodup ∧
        (∀ name p, config.standAlones.get? name = some p → ListedAfter order name p.deps) ∧
        (∀ name g, config.groups.get? name = some g → ListedAfter order name g.deps) ∧
        (∀ name ∈ config.thirdParties.keys, name ∈ order) ∧
        ∀ name ∈ order, name ∈ c.releases.keys) ∧
      ∀ name g, config.groups.get? name = some g →
        ∃ graph order, config.packageGraph name = .ok graph ∧ graph.order = .ok order ∧
          order.Nodup ∧ (∀ m, m ∈ order ↔ m ∈ g.members) ∧
          ∀ m ∈ g.members, ∃ p, config.inners.get? m = some p ∧
            ListedAfter order m (p.deps.filter g.members.contains) := by
  have hacyc := Context.acyclic_of_verify hverified
  refine ⟨cycleless_make hacyc, fun config hconfig => ?_⟩
  have hf := faithful_make hconfig
  constructor
  · obtain ⟨order, hout, ho, hmem⟩ :=
      Digraph.exists_order_of_acyclic (hacyc.of_edges fun m n h => (hf.edge_repository h).1)
    have hkey : ∀ name, name ∈ config.releaseGraph.keys → name ∈ order := fun name h =>
      (hmem name).mpr (Digraph.mem_nodes.mpr (Or.inl h))
    refine ⟨order, hout, ho.nodup, ?_, ?_, ?_, ?_⟩
    · intro name p hp
      have hname := mem_keys_releaseGraph.mpr (Or.inl (Table.mem_keys_of_get? hp))
      exact listedAfter_of_ordered ho (hkey name hname) fun d hd =>
        hf.edge_releaseGraph.mpr (Or.inl ⟨p, hp, hd⟩)
    · intro name g hg
      have hname := mem_keys_releaseGraph.mpr (Or.inr (Or.inl (Table.mem_keys_of_get? hg)))
      exact listedAfter_of_ordered ho (hkey name hname) fun d hd =>
        hf.edge_releaseGraph.mpr (Or.inr ⟨g, hg, hd⟩)
    · intro name hname
      exact hkey name (mem_keys_releaseGraph.mpr (Or.inr (Or.inr hname)))
    · intro name hname
      exact hf.mem_releases_of_mem_nodes ((hmem name).mp hname)
  · intro name g hg
    obtain ⟨graph, hgraph, hkeys, hedge⟩ := hf.exists_packageGraph hg
    obtain ⟨order, hout, ho, hmem⟩ := Digraph.exists_order_of_acyclic
      (hf.acyclic_packageGraph hverified hg fun m n => (hedge m n).mp)
    have hmembers : ∀ m, m ∈ order ↔ m ∈ g.members := by
      intro m
      rw [hmem, Digraph.mem_nodes, hkeys]
      refine ⟨fun h => h.elim id ?_, Or.inl⟩
      rintro ⟨k, hk⟩
      obtain ⟨_, p, _, hm⟩ := (hedge k m).mp hk
      exact List.contains_iff_mem.mp (List.mem_filter.mp hm).2
    refine ⟨graph, order, hgraph, hout, ho.nodup, hmembers, fun m hm => ?_⟩
    obtain ⟨_, _, _, _, hinners⟩ := hf.group hg
    obtain ⟨p, hp⟩ := Table.mem_keys_iff.mp (hinners m hm).2
    exact ⟨p, hp, listedAfter_of_ordered ho ((hmembers m).mpr hm) fun d hd =>
      (hedge m d).mpr ⟨hm, p, hp, hd⟩⟩

/-! ## A group and an application that uses it -/

/-- A package that uses another one of its group. -/
def kita : SourceUnit := { name := "kita", path := "/r/kit/kita", kind := .normal, deps := ["kitb"] }

/-- The package that it uses. -/
def kitb : SourceUnit := { name := "kitb", path := "/r/kit/kitb", kind := .normal }

/-- The group of the two packages. -/
def kit : SourceUnit :=
  { name := "kit", path := "/r/kit", kind := .group, members := ["kita", "kitb"] }

/-- An application that uses the group. -/
def app : SourceUnit := { name := "app", path := "/r/app", kind := .application, deps := ["kit"] }

/-- The group, its packages and the application. -/
def kitRepository : Context :=
  ((((Context.empty "/r").put kit).put kita).put kitb).put app

theorem kitRepository_free : WithoutCommands kitRepository emptyFlagRules :=
  withoutCommands_of_entries (by decide +kernel) (by decide +kernel)

/-- The group is configured with both packages. -/
theorem enter_kit (flags : BuildFlags) (config : BuildConfig) : ∃ config',
    (enter plainPlan kit [] (memberOptions plainPlan (optionsWith [])) flags kitRepository.units
      config).outcome = .ok config' ∧
    ∃ g, config'.groups.get? "kit" = some g ∧ g.members = ["kita", "kitb"] := by
  obtain ⟨a, ha⟩ := exists_inner_plain (u := kit) (p := kita)
    [("KIT_LOCN", "/r/kit"), ("KITA_LOCN", "/r/kit/kita")] (Table.ext (by decide +kernel)) (by cbv)
    (by decide +kernel) (by cbv)
  obtain ⟨b, hb⟩ := exists_inner_plain (u := kit) (p := kitb)
    [("KIT_LOCN", "/r/kit"), ("KITB_LOCN", "/r/kit/kitb")] (Table.ext (by decide +kernel)) (by cbv)
    (by decide +kernel) (by cbv)
  have hinners : (addInners plainPlan (memberOptions plainPlan (optionsWith [])) (location kit)
      kitRepository.units kit.members config.inners).outcome
      = .ok (["kita", "kitb"], (config.inners.set "kita" a).set "kitb" b) :=
    addInners_cons_of_inner? (p := kita) rfl rfl ha
      (addInners_cons_of_inner? (p := kitb) rfl rfl hb rfl)
  unfold enter
  rw [if_pos (by decide), Logged.outcome_bind, hinners]
  exact ⟨_, rfl, _, Table.get?_set_self _ _ _, rfl⟩

/-- The turn of the group succeeds in whatever configuration it comes, and both packages become
    members. -/
theorem addRelease_kit (hf : Faithful kitRepository config) : ∃ config',
    (addRelease plainPlan kitRepository.releaseGraph (optionsWith []) kit kitRepository.units
      config).outcome = .ok (kitRepository.units, config') ∧
    ∃ g, config'.groups.get? "kit" = some g ∧ g.members = ["kita", "kitb"] := by
  obtain ⟨flags, hturn⟩ := exists_addRelease_plain kitRepository_free hf List.mem_cons_self
    (show kitRepository.releaseGraph.levelsFrom (kitRepository.releaseGraph.children kit.name)
      = .ok [] by cbv) rfl rfl rfl
    [("KIT_LOCN", "/r/kit")] (Table.ext (by decide +kernel)) (by cbv) (by decide +kernel) (by cbv)
  obtain ⟨config', henter, hgroup⟩ := enter_kit flags config
  exact ⟨config', hturn config' henter, hgroup⟩

/-- The turn of the application succeeds and adds its entry only, with the group among its
    dependencies. -/
theorem addRelease_app (hf : Faithful kitRepository config) : ∃ p,
    (addRelease plainPlan kitRepository.releaseGraph (optionsWith []) app kitRepository.units
      config).outcome
      = .ok (kitRepository.units, { config with standAlones := config.standAlones.set "app" p }) ∧
    p.deps = innerDeps config app := by
  obtain ⟨flags, hturn⟩ := exists_addRelease_plain kitRepository_free hf
    (List.mem_cons_of_mem _ List.mem_cons_self)
    (show kitRepository.releaseGraph.levelsFrom (kitRepository.releaseGraph.children app.name)
      = .ok [["kit"]] by cbv) rfl rfl rfl
    [("APP_LOCN", "/r/app")] (Table.ext (by decide +kernel)) (by cbv) (by decide +kernel) (by cbv)
  exact ⟨_, hturn _ rfl, rfl⟩

/-- The two turns together: the repository has a configuration, with the entries that an order is
    asked of. -/
theorem make_kitRepository : ∃ config g p,
    (make plainPlan kitRepository emptyFlagRules).outcome = .ok config ∧
    config.groups.get? "kit" = some g ∧ g.members = ["kita", "kitb"] ∧
    config.standAlones.get? "app" = some p ∧ "kit" ∈ p.deps := by
  obtain ⟨config₀, hstart⟩ := exists_start_plain kitRepository_free
  have hf := faithful_start hstart
  obtain ⟨config, hkit, g, hg, hmembers⟩ := addRelease_kit hf
  have hf' := hf.step (SameUnits.refl _) List.mem_cons_self hkit
  obtain ⟨p, happ, hdeps⟩ := addRelease_app hf'
  have hrun : Run plainPlan kitRepository.releaseGraph (optionsWith []) [kit, app]
      kitRepository.units config₀ kitRepository.units
      { config with standAlones := config.standAlones.set "app" p } :=
    .step hkit (.step happ (.done _ _))
  refine ⟨_, g, p, make_ok.mpr ⟨_, _, _, _, hstart, hrun, rfl⟩, hg, hmembers,
    Table.get?_set_self _ _ _, ?_⟩
  rw [hdeps, hf'.mem_innerDeps (mem_configurable.mp
    (show app ∈ configurable kitRepository from List.mem_cons_of_mem _ List.mem_cons_self)).1]
  decide +kernel

/-- The application is listed after the group, and the packages of the group in their order. -/
theorem make_buildOrder_kit : (kitRepository.verify ⟨∅, []⟩).outcome = .ok true ∧ ∃ config,
    (make plainPlan kitRepository emptyFlagRules).outcome = .ok config ∧
    (∃ order, config.releaseGraph.order = .ok order ∧ ListedAfter order "app" ["kit"]) ∧
    ∃ graph order, config.packageGraph "kit" = .ok graph ∧ graph.order = .ok order ∧
      ListedAfter order "kita" ["kitb"] := by
  have hverified : (kitRepository.verify ⟨∅, []⟩).outcome = .ok true := by cbv
  obtain ⟨config, g, p, hmake, hg, hmembers, hp, hdep⟩ := make_kitRepository
  obtain ⟨⟨order, hout, _, halones, _⟩, hgroups⟩ :=
    (make_buildOrder plainPlan kitRepository ⟨∅, []⟩ emptyFlagRules hverified).2 config hmake
  obtain ⟨graph, inner, hgraph, hinner, _, _, hlisted⟩ := hgroups "kit" g hg
  have hkita : "kita" ∈ g.members := hmembers ▸ List.mem_cons_self
  obtain ⟨q, hq, before, after, heq, hbefore⟩ := hlisted "kita" hkita
  refine ⟨hverified, config, hmake, ⟨order, hout, ?_⟩, graph, inner, hgraph, hinner, ?_⟩
  · obtain ⟨before, after, heq, hbefore⟩ := halones "app" p hp
    exact ⟨before, after, heq, fun d hd => hbefore d (List.mem_singleton.mp hd ▸ hdep)⟩
  · refine ⟨before, after, heq, fun d hd => hbefore d ?_⟩
    obtain rfl := List.mem_singleton.mp hd
    obtain ⟨u, hu, hdeps⟩ := (faithful_make hmake).inner hq
    obtain rfl : kita = u := Option.some.inj hu
    rw [List.mem_filter, hdeps, hmembers]
    decide +kernel

end BuildMeta.BuildConfig
