import LowJs.Modules.Cache

/-!
# Graphs of modules

The body of a path is run once, whoever requires it, and all that require it after it has ended get the same
exports; a finite graph of modules that throw nothing is loaded.
-/

namespace LowJs.Modules

variable {F : Files} {s t u : Loader} {path : Path} {fuel : Nat}

/-! ### What is loaded stays the same -/

namespace Loader

/-- What the loader promises, whatever the bodies do. What `require` has returned while no body of the path
ran is what `module.exports` is; in a cycle it is something that `module.exports` has been. -/
structure Sound (s : Loader) : Prop where
  once : ∀ p, p ≠ libInit → s.evaluated.count p ≤ 1
  same : ∀ p e, (p, e, false) ∈ s.returned → p ≠ libInit → ∃ m, s.cached p = some m ∧ s.exports m = e
  cycle : ∀ p e, (p, e, true) ∈ s.returned → p ≠ libInit → ∃ m, s.cached p = some m ∧ e ∈ s.held m
  children : ∀ m, (s.children m).Nodup

/-- What carries `Sound`: the modules of the caches have been made for their paths, the bodies that were run
belong to them, and what has been returned for a path is fixed once its body does not run. -/
structure Inv (s : Loader) : Prop where
  cached : ∀ c p m, s.cache c p = some m → m < s.made ∧ s.filename m = p
  native : s.cached libNative ≠ none
  once : ∀ p, p ≠ libInit → s.evaluated.count p ≤ 1
  ran : ∀ p ∈ s.evaluated, p ≠ libInit → s.cached p ≠ none
  same : ∀ p e, (p, e, false) ∈ s.returned → p ≠ libInit →
    p ∉ s.running ∧ ∃ m, s.cached p = some m ∧ s.exports m = e
  cycle : ∀ p e, (p, e, true) ∈ s.returned → p ≠ libInit → ∃ m, s.cached p = some m ∧ e ∈ s.held m
  held : ∀ m, m < s.made → s.exports m ∈ s.held m
  children : ∀ m, (s.children m).Nodup
  childrenMap : ∀ m, ∀ c ∈ s.children m, c < s.made ∧ s.filename c ∈ s.childrenMap m

lemma Inv.sound (h : s.Inv) : s.Sound where
  once := h.once
  same p e hp hne := (h.same p e hp hne).2
  cycle := h.cycle
  children := h.children

lemma inv_init : init.Inv where
  cached c p m h := by
    simp only [init] at h
    split_ifs at h with hp
    cases h
    exact ⟨Nat.one_pos, hp.2.symm⟩
  native := by decide
  once _ _ := Nat.zero_le _
  ran _ h := by cases h
  same _ _ h := by cases h
  cycle _ _ h := by cases h
  held _ _ := List.mem_singleton_self _
  children _ := List.nodup_nil
  childrenMap _ _ h := by cases h

/-- What a cache has for the path of a new module: what it had, or the new module. -/
lemma cache_create_self {c : CacheName} {m : Nat} (hm : (s.create path).cache c path = some m) :
    s.cache c path = some m ∨ m = s.made := by
  unfold Loader.create at hm
  dsimp only at hm
  split_ifs at hm
  · exact .inl hm
  · by_cases hcc : c = cacheName path
    · rw [hcc, Function.update_self, Function.update_self] at hm
      exact .inr (Option.some.inj hm).symm
    · rw [Function.update_of_ne hcc] at hm
      exact .inl hm

lemma Inv.create (h : s.Inv) (hc : s.cached path = none) : (s.create path).Inv := by
  have hkeeps := keeps_create hc
  have hcached : ∀ p m, s.cached p = some m → (s.create path).cached p = some m :=
    fun p m hm => hkeeps.cache _ p m hm
  have hne : ∀ p m, s.cached p = some m → m ≠ s.made := fun p m hm => (h.cached _ p m hm).1.ne
  refine ⟨fun c p m hm => ?_, fun hnone => ?_, h.once, fun p hp hinit hnone => ?_, fun p e hp hinit => ?_,
    fun p e hp hinit => ?_, fun m hm => ?_, fun m => ?_, fun m c hm => ?_⟩
  · by_cases hp : p = path
    · subst hp
      by_cases hold : s.cache c p = some m
      · obtain ⟨hlt, hname⟩ := h.cached c p m hold
        exact ⟨hlt.trans (Nat.lt_succ_self _), (hkeeps.filename m hlt).trans hname⟩
      · rw [(cache_create_self hm).resolve_left hold]
        exact ⟨Nat.lt_succ_self _, Function.update_self ..⟩
    · rw [cache_create_other hp] at hm
      obtain ⟨hlt, hname⟩ := h.cached c p m hm
      exact ⟨hlt.trans (Nat.lt_succ_self _), (hkeeps.filename m hlt).trans hname⟩
  · obtain ⟨m, hm⟩ := Option.ne_none_iff_exists'.mp h.native
    rw [hcached _ m hm] at hnone
    cases hnone
  · obtain ⟨m, hm⟩ := Option.ne_none_iff_exists'.mp (h.ran p hp hinit)
    rw [hcached _ m hm] at hnone
    cases hnone
  · obtain ⟨hrun, m, hm, he⟩ := h.same p e hp hinit
    exact ⟨hrun, m, hcached p m hm, (Function.update_of_ne (hne p m hm) _ _).trans he⟩
  · obtain ⟨m, hm, he⟩ := h.cycle p e hp hinit
    refine ⟨m, hcached p m hm, ?_⟩
    exact (congrArg (e ∈ ·) (Function.update_of_ne (hne p m hm) _ _)).mpr he
  · unfold Loader.create
    dsimp only
    by_cases hmade : m = s.made
    · simp [hmade]
    · rw [Function.update_of_ne hmade, Function.update_of_ne hmade]
      exact h.held m (lt_of_le_of_ne (Nat.le_of_lt_succ hm) hmade)
  · unfold Loader.create
    dsimp only
    by_cases hmade : m = s.made
    · simp [hmade]
    · rw [Function.update_of_ne hmade]
      exact h.children m
  · unfold Loader.create at hm ⊢
    dsimp only at hm ⊢
    by_cases hmade : m = s.made
    · simp [hmade] at hm
    · rw [Function.update_of_ne hmade] at hm ⊢
      obtain ⟨hlt, hmap⟩ := h.childrenMap m c hm
      exact ⟨hlt.trans (Nat.lt_succ_self _), (congrArg (· ∈ s.childrenMap m) (hkeeps.filename c hlt)).mpr hmap⟩

/-- A body that runs sets the exports of its own module. -/
lemma Inv.setExports (h : s.Inv) {m : Nat} (hm : s.filename m ∈ s.running) (e : Option Exports) :
    (s.setExports m e).Inv := by
  refine ⟨h.cached, h.native, h.once, h.ran, fun p e' hp hinit => ?_, fun p e' hp hinit => ?_,
    fun k hk => ?_, h.children, h.childrenMap⟩
  · obtain ⟨hrun, k, hk, he⟩ := h.same p e' hp hinit
    have hne : k ≠ m := by
      rintro rfl
      rw [(h.cached _ p k hk).2] at hm
      exact hrun hm
    exact ⟨hrun, k, hk, (Function.update_of_ne hne _ _).trans he⟩
  · obtain ⟨k, hk, he⟩ := h.cycle p e' hp hinit
    refine ⟨k, hk, ?_⟩
    unfold Loader.setExports
    dsimp only
    by_cases hne : k = m
    · subst hne
      rw [Function.update_self]
      exact List.mem_append_left _ he
    · rw [Function.update_of_ne hne]
      exact he
  · unfold Loader.setExports
    dsimp only
    by_cases hne : k = m
    · subst hne
      simp
    · rw [Function.update_of_ne hne, Function.update_of_ne hne]
      exact h.held k hk

/-- The body of a path that has just been put into the cache begins. -/
lemma Inv.enter (h : s.Inv) (hc : s.cached path = none) : ((s.create path).enter path).Inv := by
  have hcreate := h.create hc
  refine ⟨hcreate.cached, hcreate.native, fun p hp => ?_, fun p hp hinit => ?_, fun p e hp hinit => ?_,
    hcreate.cycle, hcreate.held, hcreate.children, hcreate.childrenMap⟩
  · refine (congrArg (· ≤ 1) (List.count_append ..)).mpr ?_
    by_cases hpath : p = path
    · subst hpath
      have hnot : p ∉ s.evaluated := fun hmem => h.ran p hmem hp hc
      have hzero : List.count p (s.create p).evaluated = 0 := List.count_eq_zero.mpr hnot
      simp [hzero]
    · have hone : List.count p [path] = 0 := List.count_eq_zero.mpr (by simpa using hpath)
      rw [hone]
      exact h.once p hp
  · rcases List.mem_append.mp hp with hp | hp
    · exact hcreate.ran p hp hinit
    · have hpath := List.mem_singleton.mp hp
      subst hpath
      exact fun hnone => by
        have hsome := cached_create (s := s) hinit
        rw [show (s.create p).cached p = none from hnone] at hsome
        cases hsome
  · obtain ⟨hrun, m, hm, he⟩ := hcreate.same p e hp hinit
    refine ⟨fun hmem => ?_, m, hm, he⟩
    rcases List.mem_cons.mp hmem with rfl | hmem
    · obtain ⟨-, k, hk, -⟩ := h.same p e hp hinit
      rw [hc] at hk
      cases hk
    · exact hrun hmem

lemma Inv.leave (h : s.Inv) {running : List Path} (hsub : ∀ p ∈ running, p ∈ s.running) :
    (s.leave running).Inv :=
  ⟨h.cached, h.native, h.once, h.ran,
    fun p e hp hinit => ⟨fun hmem => (h.same p e hp hinit).1 (hsub p hmem), (h.same p e hp hinit).2⟩,
    h.cycle, h.held, h.children, h.childrenMap⟩

lemma Inv.setLoaded (h : s.Inv) (m : Nat) : (s.setLoaded m).Inv :=
  ⟨h.cached, h.native, h.once, h.ran, h.same, h.cycle, h.held, h.children, h.childrenMap⟩

/-- The map of the children has the paths of the children, so that none is added twice. -/
lemma Inv.addChild (h : s.Inv) {parent m : Nat} (hm : m < s.made) (hpath : s.filename m = path) :
    (s.addChild parent path m).Inv := by
  unfold Loader.addChild
  split_ifs with hin
  · exact h
  · have hnew : path ∉ s.childrenMap parent := by
      intro hmem
      simp [hmem] at hin
    refine ⟨h.cached, h.native, h.once, h.ran, h.same, h.cycle, h.held, fun k => ?_, fun k c hk => ?_⟩
    · dsimp only
      by_cases hne : k = parent
      · subst hne
        rw [Function.update_self, List.nodup_append]
        refine ⟨h.children k, List.nodup_singleton _, fun a ha b hb => ?_⟩
        rintro rfl
        rw [List.mem_singleton.mp hb] at ha
        have hmem := (h.childrenMap k m ha).2
        rw [hpath] at hmem
        exact hnew hmem
      · rw [Function.update_of_ne hne]
        exact h.children k
    · dsimp only at hk ⊢
      by_cases hne : k = parent
      · subst hne
        rw [Function.update_self] at hk ⊢
        rcases List.mem_append.mp hk with hk | hk
        · exact ⟨(h.childrenMap k c hk).1, List.mem_append_left _ (h.childrenMap k c hk).2⟩
        · rw [List.mem_singleton.mp hk, hpath]
          exact ⟨hm, by simp⟩
      · rw [Function.update_of_ne hne] at hk ⊢
        exact h.childrenMap k c hk

lemma Inv.return_ (h : s.Inv) {m : Nat} (hm : path ≠ libInit → s.cached path = some m) (hlt : m < s.made) :
    (s.return_ path m).Inv := by
  refine ⟨h.cached, h.native, h.once, h.ran, fun p e hp hinit => ?_, fun p e hp hinit => ?_, h.held,
    h.children, h.childrenMap⟩
  · rcases List.mem_append.mp hp with hp | hp
    · exact h.same p e hp hinit
    · simp only [List.mem_singleton, Prod.mk.injEq] at hp
      obtain ⟨rfl, rfl, hrun⟩ := hp
      exact ⟨of_decide_eq_false hrun.symm, m, hm hinit, rfl⟩
  · rcases List.mem_append.mp hp with hp | hp
    · exact h.cycle p e hp hinit
    · simp only [List.mem_singleton, Prod.mk.injEq] at hp
      obtain ⟨rfl, rfl, -⟩ := hp
      exact ⟨m, hm hinit, h.held m hlt⟩

end Loader

open Loader

/-- What a load does to the loader, and what it returns. -/
structure Loaded (path : Path) (s : Loader) (r : Except Unit Nat) (t : Loader) : Prop where
  inv : t.Inv
  running : t.running = s.running
  module : ∀ m, r = .ok m → m < t.made ∧ t.filename m = path ∧ (path ≠ libInit → t.cached path = some m)

lemma require_inv {load : Path → Loader → Result Nat}
    (hload : ∀ p s r t, s.Inv → load p s = some (r, t) → Loaded p s r t) (hs : s.Inv) {parent : Nat}
    {id : List Char} {r : Except Unit (Option Exports)}
    (h : require F load parent id s = some (r, t)) : t.Inv ∧ t.running = s.running := by
  unfold require at h
  cases hres : F.resolve s.cache (s.filename parent) id with
  | none =>
    rw [hres] at h
    cases h
    exact ⟨hs, rfl⟩
  | some p =>
    rw [hres] at h
    dsimp only at h
    match hl : load p s with
    | none =>
      rw [hl] at h
      cases h
    | some (.error _, u) =>
      rw [hl] at h
      cases h
      exact ⟨(hload p s _ _ hs hl).inv, (hload p s _ _ hs hl).running⟩
    | some (.ok m, u) =>
      rw [hl] at h
      cases h
      obtain ⟨hu, hrun, hmodule⟩ := hload p s _ _ hs hl
      obtain ⟨hlt, hname, hcached⟩ := hmodule m rfl
      have hkeeps : u.Keeps (u.addChild parent p m) := keeps_addChild parent m
      refine ⟨(hu.addChild hlt hname).return_ (fun hinit => hkeeps.cache _ _ _ (hcached hinit))
        (hlt.trans_le hkeeps.made), ?_⟩
      unfold addChild
      split_ifs
      · exact hrun
      · exact hrun

lemma run_inv {req : List Char → Loader → Result (Option Exports)}
    (hreq : ∀ id s r t, s.Inv → req id s = some (r, t) → t.Inv ∧ t.running = s.running ∧ s.Keeps t)
    (hs : s.Inv) {m : Nat} (hm : m < s.made) (hrun : s.filename m ∈ s.running) {body : Body}
    {r : Except Unit Unit} (h : run req m body s = some (r, t)) : t.Inv ∧ t.running = s.running := by
  induction body generalizing s with
  | done =>
    cases h
    exact ⟨hs, rfl⟩
  | throw =>
    cases h
    exact ⟨hs, rfl⟩
  | setExports e next ih => exact ih (s := s.setExports m (some e)) (hs.setExports hrun (some e)) hm hrun h
  | require id returned thrown ihr iht =>
    have hnext : ∀ q u, req id s = some (q, u) →
        u.Inv ∧ m < u.made ∧ u.filename m ∈ u.running ∧ u.running = s.running := by
      intro q u hq
      obtain ⟨hu, hsame, hkeeps⟩ := hreq id s q u hs hq
      refine ⟨hu, hm.trans_le hkeeps.made, ?_, hsame⟩
      rw [hkeeps.filename m hm, hsame]
      exact hrun
    unfold run at h
    rcases hq : req id s with _ | ⟨_ | e, u⟩
    · rw [hq] at h
      cases h
    · rw [hq] at h
      obtain ⟨hu, hlt, hmem, hsame⟩ := hnext _ u hq
      obtain ⟨ht, htu⟩ := iht hu hlt hmem h
      exact ⟨ht, htu.trans hsame⟩
    · rw [hq] at h
      obtain ⟨hu, hlt, hmem, hsame⟩ := hnext _ u hq
      obtain ⟨ht, htu⟩ := ihr e hu hlt hmem h
      exact ⟨ht, htu.trans hsame⟩

lemma load_inv {r : Except Unit Nat} (hs : s.Inv) (h : lowLoadModule F fuel path s = some (r, t)) :
    Loaded path s r t := by
  induction fuel generalizing path s t r with
  | zero => cases h
  | succ fuel ih =>
    obtain ⟨m, hc, rfl, rfl⟩ | ⟨hc, -, rfl, rfl⟩ | ⟨hc, -, rfl, rfl⟩ | ⟨hc, -, body, q, u, hrun, hend⟩ :=
      load_cases h
    · refine ⟨hs, rfl, fun m' hm' => ?_⟩
      cases hm'
      exact ⟨(hs.cached _ _ m hc).1, (hs.cached _ _ m hc).2, fun _ => hc⟩
    · exact ⟨hs, rfl, fun m hm => by cases hm⟩
    · exact ⟨hs.create hc, rfl, fun m hm => by cases hm⟩
    · set v : Loader := (s.create path).enter path with hv
      have hreq : ∀ id w r x, w.Inv → require F (lowLoadModule F fuel) s.made id w = some (r, x) →
          x.Inv ∧ x.running = w.running ∧ w.Keeps x := by
        intro id w r x hw hq
        obtain ⟨hx, hsame⟩ := require_inv (fun p s r t hs hl => ih hs hl) hw hq
        exact ⟨hx, hsame, require_keeps (fun p s r t hl => load_keeps hl) hq⟩
      have hmade : s.made < v.made := Nat.lt_succ_self _
      have hname : v.filename s.made = path := Function.update_self ..
      have hkeeps : v.Keeps u :=
        run_keeps (fun id s r t hq => require_keeps (fun p s r t hl => load_keeps hl) hq) hrun
      obtain ⟨hu, hsame⟩ := run_inv hreq (hs.enter hc) hmade (by rw [hname]; exact List.mem_cons_self) hrun
      have hleave : (u.leave s.running).Inv := hu.leave fun p hp => by
        rw [hsame]
        exact List.mem_cons_of_mem _ hp
      rcases hend with ⟨-, rfl, rfl⟩ | ⟨-, rfl, rfl⟩
      · exact ⟨hleave, rfl, fun m hm => by cases hm⟩
      · refine ⟨hleave.setLoaded s.made, rfl, fun m hm => ?_⟩
        cases hm
        exact ⟨hmade.trans_le hkeeps.made, (hkeeps.filename _ hmade).trans hname,
          fun hinit => hkeeps.cache _ _ _ (cached_create hinit)⟩

/-- The loader after what the program has loaded and required so far. -/
inductive Reaches (F : Files) : Loader → Prop
  | init : Reaches F init
  | load {s t : Loader} {fuel : Nat} {path : Path} {r : Except Unit Nat} :
    Reaches F s → lowLoadModule F fuel path s = some (r, t) → Reaches F t
  | require {s t : Loader} {fuel parent : Nat} {id : List Char} {r : Except Unit (Option Exports)} :
    Reaches F s → require F (lowLoadModule F fuel) parent id s = some (r, t) → Reaches F t

lemma Reaches.inv (h : Reaches F s) : s.Inv := by
  induction h with
  | init => exact inv_init
  | load _ hload ih => exact (load_inv ih hload).inv
  | require _ hreq ih => exact (require_inv (fun _ _ _ _ hs hl => load_inv hs hl) ih hreq).1

/-! ### Finite graphs -/

/-- A body in the file of a path that throws nothing and requires what is found among `P`, whatever it gets
from `require`. -/
def Body.Within (F : Files) (P : Finset Path) (path : Path) : Body → Prop
  | .done => True
  | .throw => False
  | .setExports _ next => next.Within F P path
  | .require id returned _ => (∀ cache, ∃ p ∈ P, F.resolve cache path id = some p) ∧
    ∀ e, (returned e).Within F P path

/-- A finite graph of modules that throw nothing: each of them but the native one can be read and run, and
requires others of them only. -/
structure Files.Graph (F : Files) (P : Finset Path) : Prop where
  notInit : libInit ∉ P
  body : ∀ p ∈ P, p ≠ libNative → ∃ file, F.read p = some file ∧
    ∃ body, F.program p file = some body ∧ body.Within F P p

/-- The paths of a graph that are not in the cache. -/
def Loader.missing (s : Loader) (P : Finset Path) : Finset Path := P.filter fun p => s.cached p = none

variable {P : Finset Path}

lemma Loader.Keeps.missing (h : s.Keeps t) : t.missing P ⊆ s.missing P := by
  intro p hp
  obtain ⟨hmem, hnone⟩ := Finset.mem_filter.mp hp
  refine Finset.mem_filter.mpr ⟨hmem, ?_⟩
  cases hc : s.cached p with
  | none => rfl
  | some m =>
    rw [show t.cached p = some m from h.cache _ _ m hc] at hnone
    cases hnone

/-- Fewer paths are missing while the body of one of them runs. -/
lemma missing_create (hpath : path ∈ P) (hinit : path ≠ libInit) (hc : s.cached path = none) :
    (((s.create path).enter path).missing P).card < (s.missing P).card := by
  refine Finset.card_lt_card (Finset.ssubset_iff_subset_ne.mpr ⟨?_, fun heq => ?_⟩)
  · exact (keeps_create hc).missing
  · have hmem : path ∈ s.missing P := Finset.mem_filter.mpr ⟨hpath, hc⟩
    rw [← heq] at hmem
    have hsome := cached_create (s := s) hinit
    rw [show (s.create path).cached path = none from (Finset.mem_filter.mp hmem).2] at hsome
    cases hsome

lemma require_total (hload : ∀ p ∈ P, ∀ s, s.Inv → (s.missing P).card < fuel →
      ∃ m t, lowLoadModule F fuel p s = some (.ok m, t))
    (hs : s.Inv) (hcard : (s.missing P).card < fuel) {parent : Nat} {id : List Char} (hpath : path ∈ P)
    (hres : F.resolve s.cache (s.filename parent) id = some path) :
    ∃ e t, require F (lowLoadModule F fuel) parent id s = some (.ok e, t) := by
  obtain ⟨m, t, ht⟩ := hload path hpath s hs hcard
  simp only [require, hres, ht]
  exact ⟨_, _, rfl⟩

lemma run_total (hload : ∀ p ∈ P, ∀ s, s.Inv → (s.missing P).card < fuel →
      ∃ m t, lowLoadModule F fuel p s = some (.ok m, t))
    (hs : s.Inv) (hcard : (s.missing P).card < fuel) {m : Nat} (hm : m < s.made)
    (hrun : s.filename m ∈ s.running) {body : Body} (hbody : body.Within F P (s.filename m)) :
    ∃ t, run (require F (lowLoadModule F fuel) m) m body s = some (.ok (), t) := by
  induction body generalizing s with
  | done => exact ⟨s, rfl⟩
  | throw => exact hbody.elim
  | setExports e next ih => exact ih (hs.setExports hrun (some e)) hcard hm hrun hbody
  | require id returned thrown ihr _ =>
    obtain ⟨p, hp, hres⟩ := hbody.1 s.cache
    obtain ⟨e, u, hu⟩ := require_total hload hs hcard hp hres
    have hkeeps : s.Keeps u := require_keeps (fun p s r t hl => load_keeps hl) hu
    obtain ⟨hinv, hsame⟩ := require_inv (fun p s r t hs hl => load_inv hs hl) hs hu
    have hname := hkeeps.filename m hm
    simp only [run, hu]
    refine ihr e hinv ((Finset.card_le_card hkeeps.missing).trans_lt hcard) (hm.trans_le hkeeps.made) ?_ ?_
    · rw [hname, hsame]
      exact hrun
    · rw [hname]
      exact hbody.2 e

/-- Each body that begins leaves one path less to be loaded. -/
lemma load_total (hP : F.Graph P) (hs : s.Inv) (hpath : path ∈ P) (hcard : (s.missing P).card < fuel) :
    ∃ m t, lowLoadModule F fuel path s = some (.ok m, t) := by
  induction fuel generalizing path s with
  | zero => exact absurd hcard (Nat.not_lt_zero _)
  | succ fuel ih =>
    cases hc : s.cached path with
    | some m => exact ⟨m, s, by simp only [lowLoadModule, hc]⟩
    | none =>
      have hinit : path ≠ libInit := fun hp => hP.notInit (hp ▸ hpath)
      have hnative : path ≠ libNative := fun hp => hs.native (hp ▸ hc)
      obtain ⟨file, hread, body, hprogram, hbody⟩ := hP.body path hpath hnative
      have hless : (((s.create path).enter path).missing P).card < fuel :=
        (missing_create hpath hinit hc).trans_le (Nat.le_of_lt_succ hcard)
      have hname : ((s.create path).enter path).filename s.made = path := Function.update_self ..
      obtain ⟨t, ht⟩ := run_total (fun p hp s hs hcard => ih hs hp hcard) (hs.enter hc) hless
        (Nat.lt_succ_self _) (by rw [hname]; exact List.mem_cons_self) (hname.symm ▸ hbody)
      simp only [lowLoadModule, hc, hread, hprogram, ht]
      exact ⟨_, _, rfl⟩

/-- Two modules that require each other. -/
def cyclic : Files where
  read p :=
    if p = ['/', 'a'] then some ⟨none, none, some (.require ['/', 'b'] (fun _ => .done) .throw)⟩
    else if p = ['/', 'b'] then
      some ⟨none, none, some (.require ['/', 'a'] (fun _ => .setExports (.value 1) .done) .throw)⟩
    else none
  resolve _ _ id := some id
  disallowNative := false

lemma cyclic_graph : cyclic.Graph {['/', 'a'], ['/', 'b']} where
  notInit := by decide
  body p hp _ := by
    rcases Finset.mem_insert.mp hp with rfl | hp
    · exact ⟨_, rfl, _, rfl, fun _ => ⟨_, by simp, rfl⟩, fun _ => trivial⟩
    · rw [Finset.mem_singleton.mp hp]
      exact ⟨_, rfl, _, rfl, fun _ => ⟨_, by simp, rfl⟩, fun _ => trivial⟩

end LowJs.Modules
