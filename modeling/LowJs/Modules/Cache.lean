import LowJs.Modules.Loader

/-!
# The cache after a failed load

A module stays in the cache of its path from before its body runs, however its load ends.
-/

namespace LowJs.Modules

variable {F : Files} {s t u : Loader} {path : Path} {fuel : Nat}

namespace Loader

/-- What the loader never undoes. -/
structure Keeps (s t : Loader) : Prop where
  made : s.made ≤ t.made
  filename : ∀ m, m < s.made → t.filename m = s.filename m
  cache : ∀ c p m, s.cache c p = some m → t.cache c p = some m
  init : ∀ c, t.cache c libInit = s.cache c libInit

lemma Keeps.rfl : s.Keeps s := ⟨le_rfl, fun _ _ => Eq.refl _, fun _ _ _ h => h, fun _ => Eq.refl _⟩

lemma Keeps.trans (h : s.Keeps t) (h' : t.Keeps u) : s.Keeps u where
  made := h.made.trans h'.made
  filename m hm := (h'.filename m (hm.trans_le h.made)).trans (h.filename m hm)
  cache c p m hc := h'.cache c p m (h.cache c p m hc)
  init c := (h'.init c).trans (h.init c)

/-- A change of the rest. -/
lemma Keeps.of_eq (hmade : t.made = s.made) (hfilename : t.filename = s.filename)
    (hcache : t.cache = s.cache) : s.Keeps t where
  made := hmade.ge
  filename _ _ := congrFun hfilename _
  cache _ _ _ h := hcache ▸ h
  init _ := hcache ▸ Eq.refl _

lemma cache_create_other {c : CacheName} {p : Path} (h : p ≠ path) :
    (s.create path).cache c p = s.cache c p := by
  unfold create
  dsimp only
  split_ifs
  · rfl
  · by_cases hc : c = cacheName path
    · rw [hc, Function.update_self, Function.update_of_ne h]
    · rw [Function.update_of_ne hc]

lemma cached_create (h : path ≠ libInit) : (s.create path).cached path = some s.made := by
  simp [create, cached, h]

lemma cache_create_init (c : CacheName) : (s.create path).cache c libInit = s.cache c libInit := by
  by_cases h : libInit = path
  · simp [create, ← h]
  · exact cache_create_other h

lemma keeps_create (h : s.cached path = none) : s.Keeps (s.create path) where
  made := Nat.le_succ _
  filename m hm := Function.update_of_ne hm.ne _ _
  cache c p m hm := by
    by_cases hp : p = path
    · subst hp
      have hc : c ≠ cacheName p := by
        rintro rfl
        rw [show s.cache (cacheName p) p = none from h] at hm
        cases hm
      unfold create
      dsimp only
      split_ifs
      · exact hm
      · rw [Function.update_of_ne hc]
        exact hm
    · rw [cache_create_other hp]
      exact hm
  init := cache_create_init

lemma keeps_addChild (parent : Nat) (m : Nat) : s.Keeps (s.addChild parent path m) := by
  unfold addChild
  split_ifs
  · exact .rfl
  · exact .of_eq rfl rfl rfl

end Loader

open Loader

lemma require_keeps {load : Path → Loader → Result Nat}
    (hload : ∀ p s r t, load p s = some (r, t) → s.Keeps t) {parent : Nat} {id : List Char}
    {r : Except Unit (Option Exports)} (h : require F load parent id s = some (r, t)) : s.Keeps t := by
  unfold require at h
  cases hres : F.resolve s.cache (s.filename parent) id with
  | none =>
    rw [hres] at h
    cases h
    exact .rfl
  | some p =>
    rw [hres] at h
    dsimp only at h
    match hl : load p s with
    | none =>
      rw [hl] at h
      cases h
    | some (.error _, u) =>
      rw [hl] at h
      cases h
      exact hload p s _ _ hl
    | some (.ok m, u) =>
      rw [hl] at h
      cases h
      exact (hload p s _ _ hl).trans ((keeps_addChild parent m).trans (.of_eq rfl rfl rfl))

lemma run_keeps {req : List Char → Loader → Result (Option Exports)}
    (hreq : ∀ id s r t, req id s = some (r, t) → s.Keeps t) {m : Nat} {body : Body}
    {r : Except Unit Unit} (h : run req m body s = some (r, t)) : s.Keeps t := by
  induction body generalizing s with
  | done =>
    cases h
    exact .rfl
  | throw =>
    cases h
    exact .rfl
  | setExports e next ih =>
    have hset : s.Keeps (s.setExports m (some e)) := .of_eq rfl rfl rfl
    exact hset.trans (ih h)
  | require id returned thrown ihr iht =>
    unfold run at h
    match hq : req id s with
    | none =>
      rw [hq] at h
      cases h
    | some (.error _, u) =>
      rw [hq] at h
      exact (hreq id s _ _ hq).trans (iht h)
    | some (.ok e, u) =>
      rw [hq] at h
      exact (hreq id s _ _ hq).trans (ihr e h)

/-- What a load can come to: the module is in the cache, its file cannot be read, nothing of it can be run,
or its body is run. -/
lemma load_cases {r : Except Unit Nat} (h : lowLoadModule F (fuel + 1) path s = some (r, t)) :
    (∃ m, s.cached path = some m ∧ r = .ok m ∧ t = s) ∨
    s.cached path = none ∧ F.read path = none ∧ r = .error () ∧ t = s ∨
    s.cached path = none ∧ F.read path ≠ none ∧ r = .error () ∧ t = s.create path ∨
    s.cached path = none ∧ F.read path ≠ none ∧ ∃ body q u,
      run (require F (lowLoadModule F fuel) s.made) s.made body ((s.create path).enter path) = some (q, u) ∧
      ((q = .error () ∧ r = .error () ∧ t = u.leave s.running) ∨
        (q = .ok () ∧ r = .ok s.made ∧ t = (u.leave s.running).setLoaded s.made)) := by
  unfold lowLoadModule at h
  cases hc : s.cached path with
  | some m =>
    rw [hc] at h
    cases h
    exact .inl ⟨m, rfl, rfl, rfl⟩
  | none =>
    rw [hc] at h
    cases hf : F.read path with
    | none =>
      rw [hf] at h
      cases h
      exact .inr (.inl ⟨rfl, rfl, rfl, rfl⟩)
    | some file =>
      rw [hf] at h
      dsimp only at h
      refine .inr (.inr ?_)
      cases hp : F.program path file with
      | none =>
        rw [hp] at h
        cases h
        exact .inl ⟨rfl, by simp, rfl, rfl⟩
      | some body =>
        rw [hp] at h
        dsimp only at h
        refine .inr ⟨rfl, by simp, body, ?_⟩
        match hr : run (require F (lowLoadModule F fuel) s.made) s.made body ((s.create path).enter path) with
        | none =>
          rw [hr] at h
          cases h
        | some (.error (), u) =>
          rw [hr] at h
          cases h
          exact ⟨_, _, rfl, .inl ⟨rfl, rfl, rfl⟩⟩
        | some (.ok (), u) =>
          rw [hr] at h
          cases h
          exact ⟨_, _, rfl, .inr ⟨rfl, rfl, rfl⟩⟩

lemma load_keeps {r : Except Unit Nat} (h : lowLoadModule F fuel path s = some (r, t)) : s.Keeps t := by
  induction fuel generalizing path s t r with
  | zero => cases h
  | succ fuel ih =>
    obtain ⟨m, hc, rfl, rfl⟩ | ⟨hc, -, rfl, rfl⟩ | ⟨hc, -, rfl, rfl⟩ | ⟨hc, -, body, q, u, hrun, hend⟩ :=
      load_cases h
    · exact .rfl
    · exact .rfl
    · exact keeps_create hc
    · have hbody : ((s.create path).enter path).Keeps u :=
        run_keeps (fun id s r t hq => require_keeps (fun p s r t hl => ih hl) hq) hrun
      have henter : (s.create path).Keeps ((s.create path).enter path) := .of_eq rfl rfl rfl
      have hu : s.Keeps u := (keeps_create hc).trans (henter.trans hbody)
      rcases hend with ⟨-, -, rfl⟩ | ⟨-, -, rfl⟩
      · exact hu.trans (.of_eq rfl rfl rfl)
      · exact hu.trans (.of_eq rfl rfl rfl)

/-- A failed load is undone: the cache of its path is as before it, and a load that succeeds later makes a
module of its own. -/
def Undone (F : Files) (path : Path) (s t : Loader) : Prop :=
  t.cached path = s.cached path ∧
    ∀ fuel m u, lowLoadModule F fuel path t = some (.ok m, u) → t.made ≤ m

/-- A load that finds nothing in the cache makes a module. -/
lemma load_new {m : Nat} (hc : s.cached path = none)
    (h : lowLoadModule F fuel path s = some (.ok m, t)) : m = s.made := by
  cases fuel with
  | zero => cases h
  | succ fuel =>
    obtain ⟨m', hc', -⟩ | ⟨-, -, hr, -⟩ | ⟨-, -, hr, -⟩ | ⟨-, -, body, q, u, -, hend⟩ := load_cases h
    · rw [hc] at hc'
      cases hc'
    · cases hr
    · cases hr
    · rcases hend with ⟨-, hr, -⟩ | ⟨-, hr, -⟩
      · cases hr
      · exact Except.ok.inj hr

/-- A load that fails with a file that can be read has put its module into the cache. -/
lemma failed_cached (hread : F.read path ≠ none) (hinit : path ≠ libInit)
    (h : lowLoadModule F fuel path s = some (.error (), t)) : t.cached path = some s.made := by
  cases fuel with
  | zero => cases h
  | succ fuel =>
    obtain ⟨m, -, hr, -⟩ | ⟨-, hnone, -⟩ | ⟨-, -, -, rfl⟩ | ⟨-, -, body, q, u, hrun, hend⟩ := load_cases h
    · cases hr
    · exact absurd hnone hread
    · exact cached_create hinit
    · have hbody : ((s.create path).enter path).Keeps u :=
        run_keeps (fun id s r t hq => require_keeps (fun p s r t hl => load_keeps hl) hq) hrun
      rcases hend with ⟨-, -, rfl⟩ | ⟨-, hr, -⟩
      · exact hbody.cache _ _ _ (cached_create hinit)
      · cases hr

/-- A load that fails has found nothing in the cache. -/
lemma failed_uncached (h : lowLoadModule F fuel path s = some (.error (), t)) : s.cached path = none := by
  cases fuel with
  | zero => cases h
  | succ fuel =>
    obtain ⟨m, -, hr, -⟩ | ⟨hc, -⟩ | ⟨hc, -⟩ | ⟨hc, -⟩ := load_cases h
    · cases hr
    · exact hc
    · exact hc
    · exact hc

/-- A failed load is undone exactly when it failed because the file could not be read, and for `lib:init`,
which is never put into a cache. -/
theorem failed_undone_iff (h : lowLoadModule F fuel path s = some (.error (), t)) :
    Undone F path s t ↔ F.read path = none ∨ path = libInit := by
  have hc := failed_uncached h
  constructor
  · intro hundone
    by_contra hnot
    obtain ⟨hread, hinit⟩ := not_or.mp hnot
    have hsame := (failed_cached hread hinit h).symm.trans (hundone.1.trans hc)
    cases hsame
  · intro hwhen
    have hsame : t.cached path = s.cached path := by
      rcases hwhen with hread | rfl
      · cases fuel with
        | zero => cases h
        | succ fuel =>
          obtain ⟨m, -, hr, -⟩ | ⟨-, -, -, rfl⟩ | ⟨-, hsome, -⟩ | ⟨-, hsome, -⟩ := load_cases h
          · cases hr
          · rfl
          · exact absurd hread hsome
          · exact absurd hread hsome
      · exact (load_keeps h).init _
    exact ⟨hsame, fun fuel m u hload => (load_new (hsame.trans hc) hload).ge⟩

/-- Files of which only one can be read: `/a`, whose body throws. -/
def throwing : Files where
  read p := if p = ['/', 'a'] then some ⟨none, none, some .throw⟩ else none
  resolve _ _ id := some id
  disallowNative := false

theorem failed_undone_iff_missing :
    lowLoadModule throwing 1 ['/', 'b'] init = some (.error (), init) ∧
      (Undone throwing ['/', 'b'] init init ↔ throwing.read ['/', 'b'] = none ∨ ['/', 'b'] = libInit) := by
  have h : lowLoadModule throwing 1 ['/', 'b'] init = some (.error (), init) := rfl
  exact ⟨h, failed_undone_iff h⟩

/-- After the body has thrown, the next load returns the module that was left behind. -/
theorem thrown_returned : ∃ t, lowLoadModule throwing 1 ['/', 'a'] init = some (.error (), t) ∧
    ¬Undone throwing ['/', 'a'] init t ∧ lowLoadModule throwing 1 ['/', 'a'] t = some (.ok 1, t) := by
  refine ⟨_, rfl, fun hundone => ?_, rfl⟩
  exact absurd (hundone.2 1 1 _ rfl) (by decide)

end LowJs.Modules
