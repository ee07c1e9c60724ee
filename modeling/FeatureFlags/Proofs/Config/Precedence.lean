import FeatureFlags.Config.Load
import FeatureFlags.Proofs.Config.Settings
import FeatureFlags.Proofs.Outcomes
import Mathlib.Data.List.Nodup

/-!
# Which source decides a setting

Of several sources, each setting comes from the one that prevails: it has the highest precedence
among those that set it, and is the last of these in the list (`ResolverConfig.Takes`). This
determines the configuration, which is then validated; sources of distinct precedences may be listed
in any order, and if some cannot be loaded, the error is that of the first in the order in which
they are merged (`ResolverConfig.settings_from_prevailing_sources`).

Sources are merged in the order of their precedence, and those of one precedence in the order of the
list. So they are considered with their places (`ConfigSource.ranked`).
-/

namespace FeatureFlags

open Outcome

namespace ConfigSource

/-- Whether the first of two sources, each with its place in a list, has to give way to the second
or is the second. -/
def Yields (a b : ConfigSource × Nat) : Prop :=
  a.1.precedence < b.1.precedence ∨ a.1.precedence = b.1.precedence ∧ a.2 ≤ b.2

theorem Yields.refl (a : ConfigSource × Nat) : Yields a a := .inr ⟨rfl, Nat.le_refl _⟩

theorem Yields.place_eq {a b : ConfigSource × Nat} (hab : Yields a b) (hba : Yields b a) :
    a.2 = b.2 := by
  unfold Yields at hab hba
  omega

/-- Sources with their places in the order in which they are merged. -/
def ranked (sources : List ConfigSource) : List (ConfigSource × Nat) :=
  sources.zipIdx.mergeSort (List.zipIdxLE fun a b => a.precedence ≤ b.precedence)

variable {sources : List ConfigSource} {files : Files} {s : Setting}

theorem mem_ranked {a : ConfigSource × Nat} : a ∈ ranked sources ↔ sources[a.2]? = some a.1 := by
  rw [ranked, (List.mergeSort_perm _ _).mem_iff, List.mem_zipIdx_iff_getElem?]

theorem exists_mem_ranked {source : ConfigSource} :
    (∃ i, (source, i) ∈ ranked sources) ↔ source ∈ sources := by
  simp only [mem_ranked]
  exact List.mem_iff_getElem?.symm

theorem map_fst_ranked (sources : List ConfigSource) :
    (ranked sources).map (·.1) = sources.mergeSort fun a b => a.precedence ≤ b.precedence :=
  List.mergeSort_zipIdx

theorem pairwise_ranked (sources : List ConfigSource) : (ranked sources).Pairwise Yields := by
  refine (List.pairwise_mergeSort (List.zipIdxLE_trans ?_) (List.zipIdxLE_total ?_) _).imp ?_
  · simp only [decide_eq_true_eq]
    omega
  · simp only [Bool.or_eq_true, decide_eq_true_eq]
    omega
  · intro a b h
    have merged : a.1.precedence ≤ b.1.precedence ∧
        (a.1.precedence < b.1.precedence ∨ a.2 ≤ b.2) := by simpa [List.zipIdxLE] using h
    unfold Yields
    omega

/-- A source that is not merged before another one is that one or is merged after it. -/
theorem yields_of_ranked {before after : List (ConfigSource × Nat)} {r : ConfigSource × Nat}
    (hranked : ranked sources = before ++ r :: after) {j : Nat} {other : ConfigSource}
    (hother : sources[j]? = some other) :
    ((other, j) ∈ before ∨ Yields r (other, j)) ∧ ((other, j) ∈ after ∨ Yields (other, j) r) := by
  have pairwise := pairwise_ranked sources
  have mem : (other, j) ∈ ranked sources := mem_ranked.2 hother
  rw [hranked] at pairwise mem
  obtain ⟨-, pairwise, across⟩ := List.pairwise_append.1 pairwise
  obtain hmem | hmem := List.mem_append.1 mem
  · exact ⟨.inl hmem, .inr (across _ hmem r List.mem_cons_self)⟩
  · obtain rfl | hmem := List.mem_cons.1 hmem
    · exact ⟨.inr (.refl _), .inr (.refl _)⟩
    · exact ⟨.inr ((List.pairwise_cons.1 pairwise).1 _ hmem), .inl hmem⟩

/-- Sources of distinct precedences are merged in one order, wherever they stand in a list. -/
theorem mergeSort_eq_of_perm {others : List ConfigSource} (perm : sources.Perm others)
    (distinct : (sources.map (·.precedence)).Nodup) :
    others.mergeSort (fun a b => a.precedence ≤ b.precedence) =
      sources.mergeSort fun a b => a.precedence ≤ b.precedence := by
  have inOrder (sources : List ConfigSource) :
      (sources.mergeSort fun a b => a.precedence ≤ b.precedence).Pairwise
        fun a b => a.precedence ≤ b.precedence := by
    rw [← map_fst_ranked, List.pairwise_map]
    refine (pairwise_ranked sources).imp fun h => ?_
    unfold Yields at h
    omega
  refine List.Perm.eq_of_pairwise (fun a b ha hb hab hba => ?_) (inOrder others) (inOrder sources)
    ((List.mergeSort_perm ..).trans (perm.symm.trans (List.mergeSort_perm ..).symm))
  rw [List.mem_mergeSort] at ha hb
  exact List.inj_on_of_nodup_map distinct (perm.mem_iff.2 ha) hb (Nat.le_antisymm hab hba)

/-- What a source sets for a setting, if anything. -/
def setting? (source : ConfigSource) (files : Files) (s : Setting) : Option s.Given :=
  (source.load files).toOption.bind (·.get s)

/-- Source `i` of a list decides a setting: it sets it, and all other sources that set it have to
give way. -/
def Prevails (sources : List ConfigSource) (files : Files) (s : Setting) (i : Nat)
    (given : s.Given) : Prop :=
  ∃ source, sources[i]? = some source ∧ source.setting? files s = some given ∧
    ∀ j other, sources[j]? = some other → (other.setting? files s).isSome →
      Yields (other, j) (source, i)

/-- What the last source to be merged that sets a setting gives for it. -/
def last? (sources : List ConfigSource) (files : Files) (s : Setting) : Option s.Given :=
  (ranked sources).reverse.findSome? (·.1.setting? files s)

theorem last?_eq_none :
    last? sources files s = none ↔ ∀ source ∈ sources, source.setting? files s = none := by
  simp only [last?, List.findSome?_eq_none_iff, List.mem_reverse, ← exists_mem_ranked]
  exact ⟨fun h source ⟨i, hi⟩ => h _ hi, fun h a ha => h a.1 ⟨a.2, ha⟩⟩

theorem exists_prevails_of_last? {given : s.Given} (h : last? sources files s = some given) :
    ∃ i, Prevails sources files s i given := by
  obtain ⟨later, a, earlier, hreverse, hgiven, hlater⟩ := List.findSome?_eq_some_iff.1 h
  have hranked : ranked sources = earlier.reverse ++ a :: later.reverse := by
    rw [← List.reverse_reverse (ranked sources), hreverse]
    simp
  have hsource : sources[a.2]? = some a.1 := mem_ranked.1 (by simp [hranked])
  refine ⟨a.2, a.1, hsource, hgiven, fun j other hother hsets => ?_⟩
  obtain hmem | yields := (yields_of_ranked hranked hother).2
  · simp [hlater _ (List.mem_reverse.1 hmem)] at hsets
  · exact yields

/-- At most one source decides a setting. -/
theorem Prevails.given_eq {i j : Nat} {x y : s.Given} (hx : Prevails sources files s i x)
    (hy : Prevails sources files s j y) : x = y := by
  obtain ⟨source, hsource, hgives, highest⟩ := hx
  obtain ⟨other, hother, hother_gives, hother_highest⟩ := hy
  have hplace : j = i := Yields.place_eq (highest j other hother (by simp [hother_gives]))
    (hother_highest i source hsource (by simp [hgives]))
  subst hplace
  cases hsource.symm.trans hother
  exact Option.some.inj (hgives.symm.trans hother_gives)

theorem last?_eq_some {given : s.Given} :
    last? sources files s = some given ↔ ∃ i, Prevails sources files s i given := by
  refine ⟨exists_prevails_of_last?, fun ⟨i, prevails⟩ => ?_⟩
  cases hlast : last? sources files s with
  | none =>
    obtain ⟨source, hsource, hgives, -⟩ := prevails
    cases (last?_eq_none.1 hlast source (List.mem_of_getElem? hsource)).symm.trans hgives
  | some other =>
    obtain ⟨j, hother⟩ := exists_prevails_of_last? hlast
    rw [prevails.given_eq hother]

end ConfigSource

namespace ResolverConfig

open ConfigSource

variable {sources : List ConfigSource} {files : Files}

/-- A configuration has a setting from the source that decides it, or else by default. -/
def Takes (config : ResolverConfig) (sources : List ConfigSource) (files : Files)
    (s : Setting) : Prop :=
  (∃ i given, Prevails sources files s i given ∧ config.get s = s.value given) ∨
    (∀ source ∈ sources, source.setting? files s = none) ∧
      config.get s = ({} : ResolverConfig).get s

theorem takes_iff {config : ResolverConfig} {s : Setting} :
    config.Takes sources files s ↔
      config.get s = (last? sources files s).elim (({} : ResolverConfig).get s) s.value := by
  unfold Takes
  rw [← last?_eq_none]
  cases hlast : last? sources files s with
  | none =>
    have none_prevails : ∀ i given, ¬Prevails sources files s i given := fun i given h => by
      cases hlast.symm.trans (last?_eq_some.2 ⟨i, h⟩)
    simp [none_prevails]
  | some given =>
    obtain ⟨i, prevails⟩ := last?_eq_some.1 hlast
    constructor
    · rintro (⟨j, other, hother, htakes⟩ | ⟨hnone, -⟩)
      · rw [htakes, prevails.given_eq hother]
        rfl
      · cases hnone
    · exact fun h => .inl ⟨i, given, prevails, h⟩

/-- The layers of sources are merged in the order of the sources. -/
theorem merged_eq (sources : List ConfigSource) (files : Files) :
    merged sources files =
      ((ranked sources).mapM fun r : ConfigSource × Nat => r.1.load files).map
        (List.foldl ConfigLayer.merge {}) := by
  unfold merged
  rw [← map_fst_ranked, List.foldlM_map, foldlM_map_eq]

/-- Merged layers set what the last of them sets that sets anything. -/
theorem get_foldl_merge {rs : List (ConfigSource × Nat)} {layers : List ConfigLayer}
    (loads : List.Forall₂ (fun r layer => r.1.load files = .ok layer) rs layers)
    (base : ConfigLayer) (s : Setting) :
    (layers.foldl ConfigLayer.merge base).get s =
      (rs.reverse.findSome? (·.1.setting? files s)).or (base.get s) := by
  induction loads generalizing base with
  | nil => rfl
  | @cons r layer rs layers load _ ih =>
    have hgives : r.1.setting? files s = layer.get s := by
      rw [setting?, load]
      rfl
    rw [List.foldl_cons, ih, ConfigLayer.get_merge, List.reverse_cons, List.findSome?_append,
      Option.or_assoc]
    simp [hgives]

/-- Sources that can all be loaded make a configuration that takes each setting from them. -/
theorem exists_takes (loads : ∀ source ∈ sources, ∃ layer, source.load files = .ok layer) :
    ∃ config : ResolverConfig, (∀ s, config.Takes sources files s) ∧
      ofSources sources files = (config.validate files).map fun _ => config := by
  obtain ⟨layers, hlayers⟩ := exists_mapM_iff.2 fun r (hr : r ∈ ranked sources) =>
    loads r.1 (exists_mem_ranked.1 ⟨r.2, hr⟩)
  refine ⟨(layers.foldl ConfigLayer.merge {}).finish, fun s => takes_iff.2 ?_, ?_⟩
  · rw [ConfigLayer.get_finish, get_foldl_merge (mapM_eq_ok.1 hlayers), ConfigLayer.get_empty,
      Option.or_none]
    rfl
  · unfold ofSources
    rw [merged_eq, hlayers]
    rfl

/-- If a source cannot be loaded, then the first such source in the order of merging is reported. -/
theorem ofSources_eq_of_fail {source : ConfigSource} (hsource : source ∈ sources)
    {error : ConfigError} (fails : source.load files = .error error) :
    ∃ i source error, sources[i]? = some source ∧ source.load files = .error error ∧
      (∀ j other e, sources[j]? = some other → other.load files = .error e →
        Yields (source, i) (other, j)) ∧
      ofSources sources files = .error error := by
  obtain ⟨i, hi⟩ := exists_mem_ranked.2 hsource
  cases hlayers : (ranked sources).mapM fun r => r.1.load files with
  | ok layers =>
    obtain ⟨layer, hload⟩ := exists_mapM_iff.1 ⟨layers, hlayers⟩ _ hi
    cases fails.symm.trans hload
  | error found =>
    obtain ⟨before, r, after, hranked, loads, hfails⟩ := mapM_eq_error.1 hlayers
    have hplace : sources[r.2]? = some r.1 := mem_ranked.1 (by simp [hranked])
    refine ⟨r.2, r.1, found, hplace, hfails, fun j other e hother he => ?_, ?_⟩
    · obtain hmem | yields := (yields_of_ranked hranked hother).1
      · obtain ⟨layer, hload⟩ := loads _ hmem
        cases he.symm.trans hload
      · exact yields
    · unfold ofSources
      rw [merged_eq, hlayers]
      rfl

/-- If all sources can be loaded, then they make the one configuration that has each setting from
the source of the highest precedence that sets it, the last of these in the list, and by default
what no source sets, unless this is refused. Sources of distinct precedences make the same in any
order. If some source cannot be loaded, then the error is that of the one of the lowest precedence,
the first of these in the list. -/
theorem settings_from_prevailing_sources (sources : List ConfigSource) (files : Files) :
    ((∀ source ∈ sources, ∃ layer, source.load files = .ok layer) →
      ∃ config : ResolverConfig, (∀ s, config.Takes sources files s) ∧
        (∀ other : ResolverConfig, (∀ s, other.Takes sources files s) → other = config) ∧
        ofSources sources files = (config.validate files).map fun _ => config) ∧
    (∀ others : List ConfigSource, sources.Perm others → (sources.map (·.precedence)).Nodup →
      ofSources others files = ofSources sources files) ∧
    (∀ source ∈ sources, ∀ error, source.load files = .error error →
      ∃ (i : Nat) (first : ConfigSource) (cause : ConfigError),
        sources[i]? = some first ∧ first.load files = .error cause ∧
        (∀ (j : Nat) (other : ConfigSource) (e : ConfigError),
          sources[j]? = some other → other.load files = .error e →
          first.precedence < other.precedence ∨ first.precedence = other.precedence ∧ i ≤ j) ∧
        ofSources sources files = .error cause) := by
  refine ⟨fun loads => ?_, fun others perm distinct => ?_, fun source hsource error fails =>
    ofSources_eq_of_fail hsource fails⟩
  · obtain ⟨config, takes, hmakes⟩ := exists_takes loads
    refine ⟨config, takes, fun other others => ext_get fun s => ?_, hmakes⟩
    rw [takes_iff.1 (takes s), takes_iff.1 (others s)]
  · unfold ofSources merged
    rw [mergeSort_eq_of_perm perm distinct]

/-- An environment that sets the port. -/
def portEnvironment (port : String) : ConfigSource :=
  .environment fun name => if name = "FLAGD_PORT" then some port else none

/-- Two sources that set the port. -/
def portTwice : List ConfigSource := [portEnvironment "1", portEnvironment "2", .defaults]

/-- Two environments set the port, and the later one prevails. An environment and a directory in
place of a file cannot be loaded, and the directory is reported. -/
theorem settings_from_prevailing_sources_ports :
    (∃ config : ResolverConfig, (∀ s, config.Takes portTwice (fun _ => none) s) ∧
      config.port = 2) ∧
    ofSources [portEnvironment "1", .defaults] (fun _ => none) =
      ofSources [.defaults, portEnvironment "1"] (fun _ => none) ∧
    ofSources [portEnvironment "x", .toml "dir", .defaults] (fun _ => some .directory) =
      .error (.fileRead "dir") := by
  refine ⟨?_, ?_, ?_⟩
  · have later : Prevails portTwice (fun _ => none) .port 1 (2 : UInt16) := by
      have hgives : (portEnvironment "2").setting? (fun _ => none) .port = some (2 : UInt16) := rfl
      refine ⟨portEnvironment "2", rfl, hgives, fun j other hother _ => ?_⟩
      match j with
      | 0 | 1 =>
        cases hother
        exact .inr ⟨rfl, by decide⟩
      | 2 =>
        cases hother
        exact .inl (by decide)
    have loads : ∀ source ∈ portTwice, ∃ layer, source.load (fun _ => none) = .ok layer := by
      simp only [portTwice, List.forall_mem_cons]
      exact ⟨⟨_, rfl⟩, ⟨_, rfl⟩, ⟨_, rfl⟩, by simp⟩
    obtain ⟨config, takes, -⟩ := (settings_from_prevailing_sources portTwice fun _ => none).1 loads
    refine ⟨config, takes, ?_⟩
    obtain ⟨i, given, prevails, hport⟩ | ⟨unset, -⟩ := takes .port
    · exact hport.trans (prevails.given_eq later)
    · obtain ⟨source, hsource, hgives, -⟩ := later
      cases (unset source (List.mem_of_getElem? hsource)).symm.trans hgives
  · exact (settings_from_prevailing_sources [.defaults, portEnvironment "1"] fun _ => none).2.1 _
      (.swap ..) (by decide)
  · obtain ⟨i, first, cause, hfirst, hcause, lowest, hmakes⟩ := (settings_from_prevailing_sources
      [portEnvironment "x", .toml "dir", .defaults] fun _ => some .directory).2.2
        (.toml "dir") (by simp) (.fileRead "dir") rfl
    rw [hmakes]
    have hlowest := lowest 1 (.toml "dir") (.fileRead "dir") rfl rfl
    match i with
    | 0 =>
      cases hfirst
      exact absurd hlowest (by decide)
    | 1 =>
      cases hfirst
      cases hcause
      rfl
    | 2 =>
      cases hfirst
      cases hcause

end ResolverConfig

end FeatureFlags
