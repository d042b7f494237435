import LowJs.HTTP.Agent

/-!
# Pools of an agent

A socket is in one table at most, a name has no more sockets than `maxSockets`, and a socket is given to
one request at a time, as long as `freeSocket` keeps no socket, which stays in the table of the sockets in
use as well, and `removeSocket` serves a request that waits only where other sockets are left.
-/

namespace LowJs.HTTP

variable {ν : Type*} [DecidableEq ν]

namespace Agent

variable {O : Options} {s t : Agent ν} {n name : ν} {x r : Nat}

/-! ### The tables -/

lemma getD_takeOut (table : ν → Option (List Nat)) (name n : ν) (x : Nat) :
    (takeOut table name x n).getD [] =
      if n = name then ((table n).getD []).erase x else (table n).getD [] := by
  unfold takeOut
  cases ht : table name with
  | none =>
    by_cases hn : n = name
    · subst hn
      simp [ht]
    · simp [hn]
  | some l =>
    by_cases hx : x ∈ l
    · by_cases hn : n = name
      · subst hn
        by_cases hl : l.erase x = [] <;> simp [hx, ht, hl]
      · simp [hx, hn]
    · by_cases hn : n = name
      · subst hn
        simp [hx, ht, List.erase_of_not_mem hx]
      · simp [hx, hn]

lemma takeOut_none {table : ν → Option (List Nat)} (h : ∀ n, table n = none) (name : ν) (x : Nat) :
    takeOut table name x = table := by
  simp [takeOut, h name]

lemma getD_update (table : ν → Option (List Nat)) (name n : ν) (l : List Nat) :
    (Function.update table name (some l) n).getD [] = if n = name then l else (table n).getD [] := by
  by_cases hn : n = name
  · subst hn
    simp
  · simp [hn]

/-- The requests that wait when the first one of a name has been taken out. -/
lemma queue_tail (s : Agent ν) (name : ν) (rest : List Nat) (n : ν) :
    queue { s with requests := Function.update s.requests name (if rest = [] then none else some rest) } n =
      if n = name then rest else s.queue n := by
  by_cases hn : n = name
  · subst hn
    by_cases hr : rest = [] <;> simp [queue, hr]
  · simp [queue, hn]

lemma mem_of_queue_tail {q p : Nat} {rest : List Nat} (hq : s.queue name = q :: rest)
    (hp : p ∈ queue { s with
      requests := Function.update s.requests name (if rest = [] then none else some rest) } n) :
    p ∈ s.queue n := by
  rw [queue_tail] at hp
  split_ifs at hp with hn
  · rw [hn, hq]
    exact List.mem_cons_of_mem _ hp
  · exact hp

/-- The table of the sockets in use gets an entry that says what it said. -/
lemma inUse_touch (s : Agent ν) (name n : ν) :
    inUse { s with sockets := Function.update s.sockets name (some (s.inUse name)) } n = s.inUse n := by
  refine (getD_update ..).trans ?_
  split_ifs with hn
  · rw [hn]
  · rfl

/-- Where no request waits, the socket is taken out, and that is all. -/
lemma removeSocket_idle (hq : s.queue name = []) (x : Nat) :
    s.removeSocket x name = (false, { s with
      sockets := takeOut s.sockets name x, freeSockets := takeOut s.freeSockets name x }) := by
  simp only [removeSocket]
  rw [show queue { s with sockets := takeOut s.sockets name x
                          freeSockets := takeOut s.freeSockets name x } name = [] from hq]

/-- A request that waits is given a new socket, and waits on. -/
lemma removeSocket_waiting {rest : List Nat} (hq : s.queue name = r :: rest)
    (hleft : (s.inUse name).erase x ≠ []) :
    s.removeSocket x name = (false, { s with
      sockets := Function.update (takeOut s.sockets name x) name
        (some ((s.inUse name).erase x ++ [s.created]))
      freeSockets := takeOut s.freeSockets name x
      created := s.created + 1
      socketName := Function.update s.socketName s.created name
      httpSetup := Function.update s.httpSetup s.created (some r)
      assigned := s.assigned ++ [(r, s.created)]
      takenAway := s.takenAway || (s.httpSetup s.created).any (· != r) }) := by
  have hget := getD_takeOut s.sockets name name x
  rw [if_pos rfl] at hget
  have hsome : takeOut s.sockets name x name = some ((s.inUse name).erase x) := by
    cases ht : takeOut s.sockets name x name with
    | none =>
      rw [ht] at hget
      exact absurd hget.symm hleft
    | some l =>
      rw [ht] at hget
      exact congrArg some hget
  simp only [removeSocket]
  rw [show queue { s with sockets := takeOut s.sockets name x
                          freeSockets := takeOut s.freeSockets name x } name = r :: rest from hq]
  simp only [createConnection, pushSocket, onSocket, hsome]

/-! ### Pools -/

/-- What a pool promises: a socket that is not closed stands in one table and there once, the sockets of a
name are not too many, and no request loses its socket to another one. -/
structure Pooled (O : Options) (s : Agent ν) : Prop where
  once : ∀ n x, s.closed x = false → (s.inUse n).count x + (s.free n).count x ≤ 1
  bound : ∀ n, ∀ max ∈ O.maxSockets, (s.inUse n).length + (s.free n).length ≤ max
  kept : s.takenAway = false

/-- The condition: `freeSocket` keeps no socket, and `removeSocket` is not called for the last socket of a
name while a request waits for one. -/
def Steady (O : Options) (s : Agent ν) : Input ν → Prop
  | .addRequest _ => True
  | .responseEnd x true => ∀ r ∈ s.httpSetup x, s.agent r = true →
    s.queue (s.name r) ≠ [] ∨ parks O s (s.name r) = false
  | .responseEnd x false | .socketClose x | .agentRemove x => ∀ r ∈ s.httpSetup x, s.agent r = true →
    s.queue (s.name r) = [] ∨ (s.inUse (s.name r)).erase x ≠ []

instance (O : Options) (s : Agent ν) : ∀ i, Decidable (s.Steady O i)
  | .addRequest _ => isTrue trivial
  | .responseEnd x true => inferInstanceAs (Decidable (∀ r ∈ s.httpSetup x, s.agent r = true →
      s.queue (s.name r) ≠ [] ∨ parks O s (s.name r) = false))
  | .responseEnd x false | .socketClose x | .agentRemove x =>
    inferInstanceAs (Decidable (∀ r ∈ s.httpSetup x, s.agent r = true →
      s.queue (s.name r) = [] ∨ (s.inUse (s.name r)).erase x ≠ []))

/-- What carries `Pooled`: a socket of a request that has its agent is in use under its name. -/
structure Inv (O : Options) (s : Agent ν) : Prop where
  freeSockets : ∀ n, s.freeSockets n = none
  nodup : ∀ n, (s.inUse n).Nodup
  bound : ∀ n, ∀ max ∈ O.maxSockets, (s.inUse n).length ≤ max
  below : ∀ n, ∀ x ∈ s.inUse n, x < s.created
  setup : ∀ x r, s.httpSetup x = some r → x < s.created ∧ r < s.made
  held : ∀ x r, s.httpSetup x = some r → s.agent r = true → x ∈ s.inUse (s.name r)
  waiting : ∀ n, ∀ r ∈ s.queue n, r < s.made ∧ s.name r = n
  kept : s.takenAway = false

omit [DecidableEq ν] in
lemma inv_init [Inhabited ν] : (init : Agent ν).Inv O where
  freeSockets _ := rfl
  nodup _ := List.nodup_nil
  bound _ _ _ := Nat.zero_le _
  below _ _ h := by cases h
  setup _ _ h := by cases h
  held _ _ h := by cases h
  waiting _ _ h := by cases h
  kept := rfl

omit [DecidableEq ν] in
lemma Inv.free_nil (h : s.Inv O) (n : ν) : s.free n = [] := by
  rw [free, h.freeSockets n]
  rfl

omit [DecidableEq ν] in
lemma Inv.pooled (h : s.Inv O) : s.Pooled O where
  once n x _ := by
    rw [h.free_nil, List.count_nil]
    exact List.nodup_iff_count_le_one.mp (h.nodup n) x
  bound n max hmax := by
    rw [h.free_nil]
    exact h.bound n max hmax
  kept := h.kept

/-- A socket is taken out of the table of the sockets in use. -/
lemma Inv.takeOut (h : s.Inv O) (name : ν) (x : Nat)
    (hx : ∀ r, s.httpSetup x = some r → s.agent r = false) :
    ({ s with sockets := takeOut s.sockets name x } : Agent ν).Inv O := by
  have hin : ∀ n, inUse { s with sockets := Agent.takeOut s.sockets name x } n =
      if n = name then (s.inUse n).erase x else s.inUse n := fun n => getD_takeOut ..
  refine ⟨h.freeSockets, fun n => ?_, fun n max hmax => ?_, fun n y hy => ?_, h.setup,
    fun y r hy hr => ?_, h.waiting, h.kept⟩
  · rw [hin]
    split_ifs
    · exact (h.nodup n).erase x
    · exact h.nodup n
  · rw [hin]
    split_ifs
    · exact List.length_erase_le.trans (h.bound n max hmax)
    · exact h.bound n max hmax
  · rw [hin] at hy
    split_ifs at hy
    · exact h.below n y (List.mem_of_mem_erase hy)
    · exact h.below n y hy
  · rw [hin]
    have hmem := h.held y r hy hr
    split_ifs
    · refine (List.mem_erase_of_ne ?_).mpr hmem
      rintro rfl
      exact absurd hr (by simp [hx r hy])
    · exact hmem

/-- A new socket is put into the table and given to a request. -/
lemma Inv.fresh (h : s.Inv O) {name : ν} (hr : r < s.made) (hname : s.name r = name)
    (hroom : ∀ max ∈ O.maxSockets, (s.inUse name).length < max) :
    ({ s with
      sockets := Function.update s.sockets name (some (s.inUse name ++ [s.created]))
      created := s.created + 1
      socketName := Function.update s.socketName s.created name
      httpSetup := Function.update s.httpSetup s.created (some r)
      assigned := s.assigned ++ [(r, s.created)]
      takenAway := s.takenAway || (s.httpSetup s.created).any (· != r) } : Agent ν).Inv O := by
  have hin : ∀ n, inUse { s with
        sockets := Function.update s.sockets name (some (s.inUse name ++ [s.created])) } n =
      if n = name then s.inUse name ++ [s.created] else s.inUse n := fun n => getD_update ..
  have hnone : s.httpSetup s.created = none := by
    cases hs : s.httpSetup s.created with
    | none => rfl
    | some r' => exact absurd (h.setup _ r' hs).1 (Nat.lt_irrefl _)
  refine ⟨h.freeSockets, fun n => ?_, fun n max hmax => ?_, fun n y hy => ?_, fun y r' hy => ?_,
    fun y r' hy hr' => ?_, h.waiting, ?_⟩
  · refine (congrArg List.Nodup (hin n)).mpr ?_
    split_ifs
    · rw [List.nodup_append]
      refine ⟨h.nodup name, List.nodup_singleton _, fun a ha b hb => ?_⟩
      rw [List.mem_singleton.mp hb]
      exact (h.below name a ha).ne
    · exact h.nodup n
  · refine (congrArg (List.length · ≤ max) (hin n)).mpr ?_
    split_ifs
    · rw [List.length_append, List.length_singleton]
      exact hroom max hmax
    · exact h.bound n max hmax
  · have hy := (hin n) ▸ hy
    split_ifs at hy
    · rcases List.mem_append.mp hy with hy | hy
      · exact (h.below name y hy).trans (Nat.lt_succ_self _)
      · rw [List.mem_singleton.mp hy]
        exact Nat.lt_succ_self _
    · exact (h.below n y hy).trans (Nat.lt_succ_self _)
  · dsimp only at hy ⊢
    by_cases hne : y = s.created
    · subst hne
      rw [Function.update_self] at hy
      exact ⟨Nat.lt_succ_self _, Option.some.inj hy ▸ hr⟩
    · rw [Function.update_of_ne hne] at hy
      exact ⟨(h.setup y r' hy).1.trans (Nat.lt_succ_self _), (h.setup y r' hy).2⟩
  · refine (congrArg (y ∈ ·) (hin _)).mpr ?_
    dsimp only at hy hr' ⊢
    by_cases hne : y = s.created
    · subst hne
      rw [Function.update_self] at hy
      cases hy
      rw [if_pos hname]
      simp
    · rw [Function.update_of_ne hne] at hy
      have hmem := h.held y r' hy hr'
      split_ifs with hn
      · exact List.mem_append_left _ (hn ▸ hmem)
      · exact hmem
  · simp [h.kept, hnone]

lemma Inv.removeSocket (h : s.Inv O) {name : ν} {x : Nat}
    (hx : ∀ r, s.httpSetup x = some r → s.agent r = false) (hmem : x ∈ s.inUse name)
    (hleft : s.queue name = [] ∨ (s.inUse name).erase x ≠ []) :
    (s.removeSocket x name).1 = false ∧ (s.removeSocket x name).2.Inv O := by
  have hout := h.takeOut name x hx
  have hfree := takeOut_none h.freeSockets name x
  cases hq : s.queue name with
  | nil =>
    rw [removeSocket_idle hq, hfree]
    exact ⟨rfl, hout⟩
  | cons r rest =>
    have hleft := hleft.resolve_left (by simp [hq])
    have hin : inUse { s with sockets := Agent.takeOut s.sockets name x } name =
        (s.inUse name).erase x := by
      have hget := getD_takeOut s.sockets name name x
      rwa [if_pos rfl] at hget
    obtain ⟨hr, hname⟩ := h.waiting name r (by simp [hq])
    have hfresh := hout.fresh (r := r) hr hname fun max hmax => by
      have hle := h.bound name max hmax
      rw [hin, List.length_erase_of_mem hmem]
      have := List.length_pos_of_mem hmem
      omega
    rw [removeSocket_waiting hq hleft, hfree]
    rw [hin] at hfresh
    exact ⟨rfl, hfresh⟩

lemma Inv.drop (h : s.Inv O) {x : Nat} (hok : ∀ r ∈ s.httpSetup x, s.agent r = true →
    s.queue (s.name r) = [] ∨ (s.inUse (s.name r)).erase x ≠ []) : (s.drop x).Inv O := by
  unfold Agent.drop
  cases hs : s.httpSetup x with
  | none => exact h
  | some r =>
    dsimp only
    by_cases ha : s.agent r = true
    · rw [if_pos ha]
      have hleft := hok r hs ha
      have hmem := h.held x r hs ha
      -- the agent of the request may as well be taken away first
      set u : Agent ν := { s with agent := Function.update s.agent r false } with hu
      have hinv : u.Inv O := by
        refine ⟨h.freeSockets, h.nodup, h.bound, h.below, h.setup, fun y r' hy hr' => ?_, h.waiting,
          h.kept⟩
        by_cases hne : r' = r
        · simp [hu, hne] at hr'
        · simp only [hu] at hr'
          rw [Function.update_of_ne hne] at hr'
          exact h.held y r' hy hr'
      have hx : ∀ r', u.httpSetup x = some r' → u.agent r' = false := by
        intro r' hr'
        have heq : r' = r := Option.some.inj (hr'.symm.trans hs)
        simp [hu, heq]
      obtain ⟨hthrow, hafter⟩ := hinv.removeSocket hx hmem hleft
      have hsame : u.removeSocket x (s.name r) = ((s.removeSocket x (s.name r)).1,
          { (s.removeSocket x (s.name r)).2 with
            agent := Function.update (s.removeSocket x (s.name r)).2.agent r false }) := by
        cases hq : s.queue (s.name r) with
        | nil => rw [removeSocket_idle hq, removeSocket_idle (s := u) hq]
        | cons r' rest =>
          have hleft' := hleft.resolve_left (by simp [hq])
          rw [removeSocket_waiting hq hleft', removeSocket_waiting (s := u) hq hleft']
          rfl
      rw [hsame] at hthrow hafter
      dsimp only at hthrow hafter
      rw [if_neg (by simp [hthrow])]
      exact hafter
    · rw [if_neg ha]
      exact h

omit [DecidableEq ν] in
/-- A socket has no request any more. -/
lemma Inv.forget (h : s.Inv O) (x : Nat) :
    ({ s with httpSetup := Function.update s.httpSetup x none } : Agent ν).Inv O := by
  have hother : ∀ y r, Function.update s.httpSetup x none y = some r → s.httpSetup y = some r := by
    intro y r hy
    by_cases hne : y = x
    · rw [hne, Function.update_self] at hy
      cases hy
    · rwa [Function.update_of_ne hne] at hy
  exact ⟨h.freeSockets, h.nodup, h.bound, h.below, fun y r hy => h.setup y r (hother y r hy),
    fun y r hy hr => h.held y r (hother y r hy) hr, h.waiting, h.kept⟩

/-- The first request that waits gets a socket that has none. -/
lemma Inv.handOn (h : s.Inv O) {q : Nat} {rest : List Nat} (hnone : s.httpSetup x = none)
    (hmade : x < s.created) (hmem : x ∈ s.inUse name) (hq : s.queue name = q :: rest) :
    (onSocket { s with
      requests := Function.update s.requests name (if rest = [] then none else some rest) } q x).Inv O := by
  obtain ⟨hqmade, hqname⟩ := h.waiting name q (by simp [hq])
  refine ⟨h.freeSockets, h.nodup, h.bound, h.below, fun y p hy => ?_, fun y p hy hp => ?_,
    fun n p hp => h.waiting n p (mem_of_queue_tail hq hp), ?_⟩
  · simp only [onSocket] at hy
    by_cases hne : y = x
    · subst hne
      rw [Function.update_self] at hy
      exact ⟨hmade, Option.some.inj hy ▸ hqmade⟩
    · rw [Function.update_of_ne hne] at hy
      exact h.setup y p hy
  · simp only [onSocket] at hy
    by_cases hne : y = x
    · subst hne
      rw [Function.update_self] at hy
      cases hy
      show y ∈ s.inUse (s.name q)
      rw [hqname]
      exact hmem
    · rw [Function.update_of_ne hne] at hy
      exact h.held y p hy hp
  · simp [onSocket, hnone, h.kept]

lemma Inv.responseEnd (h : s.Inv O) {x : Nat} {reuse : Bool}
    (hok : s.Steady O (.responseEnd x reuse)) : (responseEnd O s x reuse).Inv O := by
  unfold Agent.responseEnd
  cases hs : s.httpSetup x with
  | none => exact h
  | some r =>
    dsimp only
    by_cases ha : s.agent r = true
    swap
    · rw [if_neg ha]
      exact h
    rw [if_pos ha]
    have hmem := h.held x r hs ha
    have hinv := h.forget x
    cases reuse with
    | false =>
      simp only [Bool.false_eq_true, if_false]
      exact (hinv.removeSocket (fun r' hr' => by simp at hr') hmem (hok r hs ha)).2
    | true =>
      simp only [if_true]
      unfold freeSocket
      cases hq : queue { s with httpSetup := Function.update s.httpSetup x none } (s.name r) with
      | nil =>
        have hparks : parks O s (s.name r) = false := (hok r hs ha).resolve_left (not_not_intro hq)
        have hparks' : parks O { s with httpSetup := Function.update s.httpSetup x none } (s.name r) = false :=
          hparks
        simp only [hparks', Bool.false_eq_true, if_false]
        exact hinv
      | cons q rest =>
        exact hinv.handOn (Function.update_self ..) (h.setup x r hs).1 hmem hq

/-- A new request comes into being. -/
lemma Inv.request (h : s.Inv O) (name : ν) :
    ({ s with
      made := s.made + 1
      name := Function.update s.name s.made name
      agent := Function.update s.agent s.made true
      sockets := Function.update s.sockets name (some (s.inUse name)) } : Agent ν).Inv O := by
  have hin := inUse_touch s name
  have hname : ∀ r, r < s.made → Function.update s.name s.made name r = s.name r := fun r hr =>
    Function.update_of_ne hr.ne _ _
  refine ⟨h.freeSockets, fun n => ?_, fun n max hmax => ?_, fun n y hy => ?_, fun y r hy => ?_,
    fun y r hy hr => ?_, fun n r hr => ?_, h.kept⟩
  · exact (congrArg List.Nodup (hin n)).mpr (h.nodup n)
  · exact (congrArg (List.length · ≤ max) (hin n)).mpr (h.bound n max hmax)
  · exact h.below n y ((hin n) ▸ hy)
  · exact ⟨(h.setup y r hy).1, (h.setup y r hy).2.trans (Nat.lt_succ_self _)⟩
  · refine (congrArg (y ∈ ·) (hin _)).mpr ?_
    have hlt := (h.setup y r hy).2
    dsimp only at hr ⊢
    rw [Function.update_of_ne hlt.ne] at hr
    rw [hname r hlt]
    exact h.held y r hy hr
  · obtain ⟨hlt, hn⟩ := h.waiting n r hr
    exact ⟨hlt.trans (Nat.lt_succ_self _), (hname r hlt).trans hn⟩

lemma Inv.addRequest (h : s.Inv O) (name : ν) : (addRequest O s name).Inv O := by
  have hreq := h.request name
  unfold Agent.addRequest
  dsimp only
  set u : Agent ν := { s with
    made := s.made + 1
    name := Function.update s.name s.made name
    agent := Function.update s.agent s.made true
    sockets := Function.update s.sockets name (some (s.inUse name)) } with hu
  have hmade : s.made < u.made := Nat.lt_succ_self _
  have hname : u.name s.made = name := Function.update_self ..
  have hsock : u.sockets name = some (u.inUse name) := by simp [hu, inUse]
  rw [hreq.free_nil name]
  dsimp only
  split_ifs with hroom
  · have hfresh := hreq.fresh (r := s.made) hmade hname fun max hmax => by
      simpa [hasRoom, Option.mem_def.mp hmax, hreq.free_nil name] using hroom
    simp only [createConnection, pushSocket, onSocket, hsock]
    exact hfresh
  · refine ⟨hreq.freeSockets, hreq.nodup, hreq.bound, hreq.below, hreq.setup, hreq.held,
      fun n r hr => ?_, hreq.kept⟩
    have hr : r ∈ (Function.update u.requests name (some (u.queue name ++ [s.made])) n).getD [] := hr
    rw [getD_update] at hr
    show r < u.made ∧ u.name r = n
    split_ifs at hr with hn
    · rw [hn]
      rcases List.mem_append.mp hr with hr | hr
      · exact hreq.waiting name r hr
      · rw [List.mem_singleton.mp hr]
        exact ⟨hmade, hname⟩
    · exact hreq.waiting n r hr

lemma Inv.step (h : s.Inv O) {i : Input ν} (hok : s.Steady O i) : (s.step O i).Inv O := by
  cases i with
  | addRequest name => exact h.addRequest name
  | responseEnd x reuse => exact h.responseEnd hok
  | socketClose x =>
    simp only [Agent.step]
    split_ifs
    · exact h
    · have hclosed : ({ s with closed := Function.update s.closed x true } : Agent ν).Inv O :=
        ⟨h.freeSockets, h.nodup, h.bound, h.below, h.setup, h.held, h.waiting, h.kept⟩
      exact hclosed.drop hok
  | agentRemove x => exact h.drop hok

/-- In every run in which `freeSocket` keeps no socket and `removeSocket` is not called for the last
socket of a name while a request waits, the pool keeps its promises. -/
theorem pool_sound [Inhabited ν] (O : Options) {is : List (Input ν)}
    (hok : (machine O).Guarded (Steady O) (init : Agent ν) is) :
    ((machine O).run (init : Agent ν) is).Pooled O :=
  ((machine O).run_invariant (P := Inv O) (fun _ _ h hi => h.step hi) inv_init hok).pooled

/-- Two requests for one socket, which the second one gets from the first one. -/
theorem pool_sound_two :
    ((machine ⟨true, some 1, 256⟩).run (init : Agent Nat)
      [.addRequest 0, .addRequest 0, .responseEnd 0 true]).Pooled ⟨true, some 1, 256⟩ :=
  pool_sound _ (by decide)

/-- A socket that is kept for the next request stands in both tables. -/
theorem kept_twice :
    ¬((machine ⟨true, some 1, 256⟩).run (init : Agent Nat)
      [.addRequest 0, .responseEnd 0 true]).Pooled ⟨true, some 1, 256⟩ := by
  intro h
  exact absurd (h.once 0 0 (by decide)) (by decide)

end Agent

end LowJs.HTTP
