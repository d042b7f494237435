import LowJs.HTTP.AgentPool

/-!
# The queue of an agent

The requests that wait under a name are given sockets in the order in which they came, each of them one,
as long as `freeSocket` is called only where a request waits and `removeSocket` only where none does.
-/

namespace LowJs.HTTP

variable {ν : Type*} [DecidableEq ν]

namespace Agent

variable {O : Options} {s : Agent ν} {n name : ν} {x r : Nat}

/-- The sockets of a name that exist. -/
def live (s : Agent ν) (n : ν) : List Nat :=
  (List.range s.created).filter fun x => decide (s.socketName x = n) && !s.closed x

/-- What the queue promises: the requests that were queued are those that have been given a socket, in this
order, and those that wait; where one waits, there are `maxSockets` sockets; and no method throws. -/
structure Orderly (O : Options) (s : Agent ν) : Prop where
  nodup : ∀ n, (s.queued n).Nodup
  inOrder : ∀ n, (s.assigned.map Prod.fst).filter (· ∈ s.queued n) ++ s.queue n = s.queued n
  full : ∀ n, s.queue n ≠ [] → ∀ max ∈ O.maxSockets, max ≤ (s.live n).length
  thrown : s.thrown = false

/-- The condition: `freeSocket` is called only where a request waits, `removeSocket` only where none
does. -/
def Serving (s : Agent ν) : Input ν → Prop
  | .addRequest _ => True
  | .responseEnd x true => ∀ r ∈ s.httpSetup x, s.agent r = true → s.queue (s.name r) ≠ []
  | .responseEnd x false | .socketClose x | .agentRemove x => ∀ r ∈ s.httpSetup x, s.agent r = true →
    s.queue (s.name r) = []

instance (s : Agent ν) : ∀ i, Decidable (s.Serving i)
  | .addRequest _ => isTrue trivial
  | .responseEnd x true => inferInstanceAs (Decidable (∀ r ∈ s.httpSetup x, s.agent r = true →
      s.queue (s.name r) ≠ []))
  | .responseEnd x false | .socketClose x | .agentRemove x =>
    inferInstanceAs (Decidable (∀ r ∈ s.httpSetup x, s.agent r = true → s.queue (s.name r) = []))

omit [DecidableEq ν] in
lemma Serving.steady {i : Input ν} (h : s.Serving i) : s.Steady O i := by
  cases i with
  | addRequest name => exact trivial
  | responseEnd x reuse =>
    cases reuse with
    | true => exact fun r hr ha => .inl (h r hr ha)
    | false => exact fun r hr ha => .inl (h r hr ha)
  | socketClose x => exact fun r hr ha => .inl (h r hr ha)
  | agentRemove x => exact fun r hr ha => .inl (h r hr ha)

/-- What carries `Orderly`, beside `Inv`: a socket in use exists and its request has its agent, and a
request has been given one socket at most. -/
structure Waits (O : Options) (s : Agent ν) : Prop where
  nodup : ∀ n, (s.queued n).Nodup
  inOrder : ∀ n, (s.assigned.map Prod.fst).filter (· ∈ s.queued n) ++ s.queue n = s.queued n
  full : ∀ n, s.queue n ≠ [] → ∀ max ∈ O.maxSockets, max ≤ (s.inUse n).length
  thrown : s.thrown = false
  queued : ∀ n, ∀ r ∈ s.queued n, r < s.made ∧ s.name r = n
  assigned : ∀ r ∈ s.assigned.map Prod.fst, r < s.made
  once : (s.assigned.map Prod.fst).Nodup
  setup : ∀ x r, s.httpSetup x = some r → (r, x) ∈ s.assigned
  used : ∀ n, ∀ x ∈ s.inUse n, s.closed x = false ∧ s.socketName x = n ∧
    ∃ r, s.httpSetup x = some r ∧ s.agent r = true
  waiting : ∀ n, ∀ r ∈ s.queue n, s.agent r = true
  closed : ∀ x, s.closed x = true → x < s.created

omit [DecidableEq ν] in
lemma waits_init [Inhabited ν] : (init : Agent ν).Waits O where
  nodup _ := List.nodup_nil
  inOrder _ := rfl
  full _ h := absurd rfl h
  thrown := rfl
  queued _ _ h := by cases h
  assigned _ h := by cases h
  once := List.nodup_nil
  setup _ _ h := by cases h
  used _ _ h := by cases h
  waiting _ _ h := by cases h
  closed _ h := by cases h

/-- The sockets in use are among those that exist. -/
lemma Waits.orderly (h : s.Waits O) (hp : s.Inv O) : s.Orderly O where
  nodup := h.nodup
  inOrder := h.inOrder
  full n hq max hmax := by
    refine (h.full n hq max hmax).trans (((hp.nodup n).subperm fun x hx => ?_).length_le)
    obtain ⟨hopen, hname, -⟩ := h.used n x hx
    simp [live, hp.below n x hx, hopen, hname]
  thrown := h.thrown

omit [DecidableEq ν] in
/-- Two sockets of one request are the same. -/
lemma Waits.setup_inj (h : s.Waits O) {y : Nat} (hx : s.httpSetup x = some r)
    (hy : s.httpSetup y = some r) : x = y :=
  congrArg Prod.snd (List.inj_on_of_nodup_map h.once (h.setup x r hx) (h.setup y r hy) rfl)

omit [DecidableEq ν] in
lemma Waits.mem_queued (h : s.Waits O) {q : Nat} (hq : q ∈ s.queue n) : q ∈ s.queued n := by
  rw [← h.inOrder n]
  exact List.mem_append_right _ hq

omit [DecidableEq ν] in
/-- A request that waits has been given no socket. -/
lemma Waits.unassigned (h : s.Waits O) {q : Nat} (hq : q ∈ s.queue n) : q ∉ s.assigned.map Prod.fst := by
  intro hold
  have hnodup := h.nodup n
  rw [← h.inOrder, List.nodup_append] at hnodup
  exact hnodup.2.2 q (List.mem_filter.mpr ⟨hold, by simpa using h.mem_queued hq⟩) q hq rfl

/-- The socket of a request leaves the table, where none waits; the request may lose its agent, the socket
its request, and it may be closed. -/
lemma Waits.leave (h : s.Waits O) (hp : s.Inv O) (hs : s.httpSetup x = some r) (ha : s.agent r = true)
    (hq : s.queue (s.name r) = []) {setup : Nat → Option Nat} {agent closed : Nat → Bool}
    (hsetup : ∀ y, y ≠ x → setup y = s.httpSetup y)
    (hgone : ∀ q, setup x = some q → s.httpSetup x = some q)
    (hagent : ∀ q, q ≠ r → agent q = s.agent q) (hclosed : ∀ y, y ≠ x → closed y = s.closed y) :
    ({ s with
      httpSetup := setup
      agent := agent
      closed := closed
      sockets := takeOut s.sockets (s.name r) x
      freeSockets := takeOut s.freeSockets (s.name r) x } : Agent ν).Waits O := by
  have hin : ∀ n, inUse { s with sockets := takeOut s.sockets (s.name r) x } n =
      if n = s.name r then (s.inUse n).erase x else s.inUse n := fun n => getD_takeOut ..
  have hleft : ∀ n, ∀ y ∈ inUse { s with sockets := takeOut s.sockets (s.name r) x } n,
      y ∈ s.inUse n ∧ y ≠ x := by
    intro n y hy
    rw [hin] at hy
    split_ifs at hy with hn
    · exact ⟨List.mem_of_mem_erase hy, fun hyx => (hp.nodup n).not_mem_erase (hyx ▸ hy)⟩
    · refine ⟨hy, fun hyx => hn ?_⟩
      have hx := (h.used _ x (hp.held x r hs ha)).2.1
      rw [← (h.used n y hy).2.1, hyx, hx]
  refine ⟨h.nodup, h.inOrder, fun n hn max hmax => ?_, h.thrown, h.queued, h.assigned, h.once,
    fun y q hy => ?_, fun n y hy => ?_, fun n q hq => ?_, fun y hy => ?_⟩
  · refine le_of_le_of_eq (h.full n hn max hmax) (congrArg List.length ?_)
    refine (Eq.trans (hin n) (if_neg ?_)).symm
    rintro rfl
    exact hn hq
  · by_cases hne : y = x
    · subst hne
      exact h.setup y q (hgone q hy)
    · exact h.setup y q ((hsetup y hne).symm.trans hy)
  · obtain ⟨hy, hne⟩ := hleft n y hy
    obtain ⟨hopen, hname, q, hyq, hq⟩ := h.used n y hy
    refine ⟨(hclosed y hne).trans hopen, hname, q, (hsetup y hne).trans hyq, (hagent q ?_).trans hq⟩
    rintro rfl
    exact hne (h.setup_inj hyq hs)
  · refine (hagent q ?_).trans (h.waiting n q hq)
    rintro rfl
    exact h.unassigned hq (List.mem_map_of_mem (h.setup x q hs))
  · by_cases hne : y = x
    · rw [hne]
      exact (hp.setup x r hs).1
    · exact h.closed y ((hclosed y hne).symm.trans hy)

/-- `removeSocket` where none waits, of a socket that may have been closed just now. -/
lemma Waits.drop (h : s.Waits O) (hp : s.Inv O) {closed : Nat → Bool}
    (hok : ∀ r ∈ s.httpSetup x, s.agent r = true → s.queue (s.name r) = [])
    (hclosed : ∀ y, y ≠ x → closed y = s.closed y) (hx : closed x = true → x < s.created) :
    (drop { s with closed := closed } x).Waits O := by
  -- a socket that is not in use may be closed
  have hunused : (∀ n, x ∉ s.inUse n) → ({ s with closed := closed } : Agent ν).Waits O := by
    intro hnot
    refine ⟨h.nodup, h.inOrder, h.full, h.thrown, h.queued, h.assigned, h.once, h.setup,
      fun n y hy => ?_, h.waiting, fun y hy => ?_⟩
    · have hne : y ≠ x := fun hyx => hnot n (hyx ▸ hy)
      exact ⟨(hclosed y hne).trans (h.used n y hy).1, (h.used n y hy).2⟩
    · by_cases hne : y = x
      · rw [hne] at hy ⊢
        exact hx hy
      · exact h.closed y ((hclosed y hne).symm.trans hy)
  unfold Agent.drop
  dsimp only
  cases hs : s.httpSetup x with
  | none =>
    refine hunused fun n hmem => ?_
    obtain ⟨r, hr, -⟩ := (h.used n x hmem).2.2
    rw [hs] at hr
    cases hr
  | some r =>
    dsimp only
    by_cases ha : s.agent r = true
    · have hq := hok r hs ha
      rw [if_pos ha, removeSocket_idle (s := { s with closed := closed }) hq]
      simp only [Bool.false_eq_true, if_false]
      exact h.leave hp hs ha hq (fun _ _ => rfl) (fun _ hq => hq)
        (fun q hne => Function.update_of_ne hne _ _) hclosed
    · rw [if_neg ha]
      refine hunused fun n hmem => ha ?_
      obtain ⟨q, hqx, hq⟩ := (h.used n x hmem).2.2
      rwa [Option.some.inj (hqx.symm.trans hs)] at hq

/-- The first request that waits gets the socket of one whose response has ended. -/
lemma Waits.handOn (h : s.Waits O) (hp : s.Inv O) (hs : s.httpSetup x = some r)
    (hq : s.queue (s.name r) ≠ []) :
    (freeSocket O { s with httpSetup := Function.update s.httpSetup x none } x (s.name r)).Waits O := by
  obtain ⟨q, rest, hqueue⟩ := List.exists_cons_of_ne_nil hq
  have hmem : q ∈ s.queue (s.name r) := by simp [hqueue]
  obtain ⟨hqmade, hqname⟩ := hp.waiting _ q hmem
  unfold freeSocket
  rw [show queue { s with httpSetup := Function.update s.httpSetup x none } (s.name r) = q :: rest
    from hqueue]
  simp only [onSocket]
  have hrest := queue_tail s (s.name r) rest
  refine ⟨h.nodup, fun n => ?_, fun n hn => ?_, h.thrown, h.queued, fun p hp' => ?_, ?_, fun y p hy => ?_,
    fun n y hy => ?_, fun n p hp => h.waiting n p (mem_of_queue_tail hqueue hp), h.closed⟩
  · refine Eq.trans (congrArg _ (hrest n)) ?_
    have hold := h.inOrder n
    rw [List.map_append, List.filter_append, List.append_assoc]
    by_cases hn : n = s.name r
    · subst hn
      rw [hqueue] at hold
      simpa [h.mem_queued hmem] using hold
    · have hqq : q ∉ s.queued n := fun hin => hn ((h.queued n q hin).2.symm.trans hqname)
      simpa [hqq, hn] using hold
  · obtain ⟨p, hp⟩ := List.exists_mem_of_ne_nil _ hn
    exact h.full n (List.ne_nil_of_mem (mem_of_queue_tail hqueue hp))
  · rw [List.map_append, List.mem_append] at hp'
    rcases hp' with hp' | hp'
    · exact h.assigned p hp'
    · rw [List.mem_singleton.mp hp']
      exact hqmade
  · rw [List.map_append, List.nodup_append]
    refine ⟨h.once, List.nodup_singleton _, fun a ha b hb => ?_⟩
    rintro rfl
    rw [List.mem_singleton.mp hb] at ha
    exact h.unassigned hmem ha
  · dsimp only at hy ⊢
    by_cases hne : y = x
    · subst hne
      rw [Function.update_self] at hy
      cases hy
      simp
    · rw [Function.update_of_ne hne, Function.update_of_ne hne] at hy
      exact List.mem_append_left _ (h.setup y p hy)
  · obtain ⟨hopen, hname, p, hyp, hpa⟩ := h.used n y hy
    refine ⟨hopen, hname, ?_⟩
    dsimp only
    by_cases hne : y = x
    · subst hne
      exact ⟨q, Function.update_self .., h.waiting _ q hmem⟩
    · rw [Function.update_of_ne hne, Function.update_of_ne hne]
      exact ⟨p, hyp, hpa⟩

lemma Waits.responseEnd (h : s.Waits O) (hp : s.Inv O) {reuse : Bool}
    (hok : s.Serving (.responseEnd x reuse)) : (responseEnd O s x reuse).Waits O := by
  unfold Agent.responseEnd
  cases hs : s.httpSetup x with
  | none => exact h
  | some r =>
    dsimp only
    by_cases ha : s.agent r = true
    swap
    · rw [if_neg ha]
      exact h
    rw [if_pos ha]
    cases reuse with
    | true => exact h.handOn hp hs (hok r hs ha)
    | false =>
      have hq : queue { s with httpSetup := Function.update s.httpSetup x none } (s.name r) = [] :=
        hok r hs ha
      simp only [Bool.false_eq_true, if_false]
      rw [removeSocket_idle hq]
      exact h.leave hp hs ha hq (fun y hne => Function.update_of_ne hne _ _) (fun q hq => by simp at hq)
        (fun _ _ => rfl) (fun _ _ => rfl)

/-- A new request comes into being. -/
lemma Waits.request (h : s.Waits O) (name : ν) :
    ({ s with
      made := s.made + 1
      name := Function.update s.name s.made name
      agent := Function.update s.agent s.made true
      sockets := Function.update s.sockets name (some (s.inUse name)) } : Agent ν).Waits O := by
  have hin := inUse_touch s name
  have hagent : ∀ r, s.agent r = true → Function.update s.agent s.made true r = true := fun r hr => by
    by_cases hne : r = s.made <;> simp [hne, hr]
  refine ⟨h.nodup, h.inOrder, fun n hn max hmax => ?_, h.thrown, fun n r hr => ?_,
    fun r hr => (h.assigned r hr).trans (Nat.lt_succ_self _), h.once, h.setup, fun n y hy => ?_,
    fun n r hr => hagent r (h.waiting n r hr), h.closed⟩
  · exact (h.full n hn max hmax).trans_eq (congrArg List.length (hin n)).symm
  · obtain ⟨hlt, hname⟩ := h.queued n r hr
    exact ⟨hlt.trans (Nat.lt_succ_self _), (Function.update_of_ne hlt.ne _ _).trans hname⟩
  · obtain ⟨hopen, hname, r, hyr, hr⟩ := h.used n y ((hin n) ▸ hy)
    exact ⟨hopen, hname, r, hyr, hagent r hr⟩

/-- A request that never waited is given a new socket. -/
lemma Waits.fresh (h : s.Waits O) (hp : s.Inv O) {name : ν} (hr : r < s.made) (ha : s.agent r = true)
    (hqueued : ∀ n, r ∉ s.queued n) (hnew : r ∉ s.assigned.map Prod.fst) :
    ({ s with
      sockets := Function.update s.sockets name (some (s.inUse name ++ [s.created]))
      created := s.created + 1
      socketName := Function.update s.socketName s.created name
      httpSetup := Function.update s.httpSetup s.created (some r)
      assigned := s.assigned ++ [(r, s.created)]
      takenAway := s.takenAway || (s.httpSetup s.created).any (· != r) } : Agent ν).Waits O := by
  have hin : ∀ n, inUse { s with
      sockets := Function.update s.sockets name (some (s.inUse name ++ [s.created])) } n =
      if n = name then s.inUse name ++ [s.created] else s.inUse n := fun n => getD_update ..
  have hopen : s.closed s.created = false := by
    cases hc : s.closed s.created with
    | false => rfl
    | true => exact absurd (h.closed _ hc) (Nat.lt_irrefl _)
  refine ⟨h.nodup, fun n => ?_, fun n hn max hmax => ?_, h.thrown, h.queued, fun q hq => ?_, ?_,
    fun y q hy => ?_, fun n y hy => ?_, h.waiting, fun y hy => (h.closed y hy).trans (Nat.lt_succ_self _)⟩
  · refine Eq.trans (congrArg (· ++ s.queue n) ?_) (h.inOrder n)
    simp [hqueued n]
  · refine (h.full n hn max hmax).trans (le_of_le_of_eq ?_ (congrArg List.length (hin n)).symm)
    split_ifs with hnn
    · rw [hnn, List.length_append]
      exact Nat.le_add_right ..
    · exact le_rfl
  · rw [List.map_append, List.mem_append] at hq
    rcases hq with hq | hq
    · exact h.assigned q hq
    · rw [List.mem_singleton.mp hq]
      exact hr
  · rw [List.map_append, List.nodup_append]
    refine ⟨h.once, List.nodup_singleton _, fun a hin b hb => ?_⟩
    rintro rfl
    rw [List.mem_singleton.mp hb] at hin
    exact hnew hin
  · dsimp only at hy ⊢
    by_cases hne : y = s.created
    · subst hne
      rw [Function.update_self] at hy
      cases hy
      simp
    · rw [Function.update_of_ne hne] at hy
      exact List.mem_append_left _ (h.setup y q hy)
  · have hold : ∀ n, y ∈ s.inUse n → s.closed y = false ∧
        Function.update s.socketName s.created name y = n ∧
        ∃ q, Function.update s.httpSetup s.created (some r) y = some q ∧ s.agent q = true := by
      intro n hy
      have hne := (hp.below n y hy).ne
      rw [Function.update_of_ne hne, Function.update_of_ne hne]
      exact h.used n y hy
    have hy := (hin n) ▸ hy
    split_ifs at hy with hnn
    · rcases List.mem_append.mp hy with hy | hy
      · exact hnn ▸ hold name hy
      · rw [List.mem_singleton.mp hy]
        exact ⟨hopen, (Function.update_self ..).trans hnn.symm, r, Function.update_self .., ha⟩
    · exact hold n hy

/-- A request is put into the queue, where there are sockets enough. -/
lemma Waits.enqueue (h : s.Waits O) {name : ν} (hr : r < s.made) (hname : s.name r = name)
    (ha : s.agent r = true) (hqueued : ∀ n, r ∉ s.queued n) (hnew : r ∉ s.assigned.map Prod.fst)
    (hfull : ∀ max ∈ O.maxSockets, max ≤ (s.inUse name).length) :
    ({ s with
      requests := Function.update s.requests name (some (s.queue name ++ [r]))
      queued := Function.update s.queued name (s.queued name ++ [r]) } : Agent ν).Waits O := by
  have hq : ∀ n, queue { s with
      requests := Function.update s.requests name (some (s.queue name ++ [r])) } n =
      if n = name then s.queue name ++ [r] else s.queue n := fun n => getD_update ..
  refine ⟨fun n => ?_, fun n => ?_, fun n hn => ?_, h.thrown, fun n q hqn => ?_, h.assigned, h.once,
    h.setup, h.used, fun n q hqn => ?_, h.closed⟩
  · dsimp only
    by_cases hn : n = name
    · subst hn
      rw [Function.update_self, List.nodup_append]
      refine ⟨h.nodup n, List.nodup_singleton _, fun a ha b hb => ?_⟩
      rintro rfl
      rw [List.mem_singleton.mp hb] at ha
      exact hqueued n ha
    · rw [Function.update_of_ne hn]
      exact h.nodup n
  · refine Eq.trans (congrArg _ (hq n)) ?_
    by_cases hn : n = name
    · subst hn
      have hsame : (s.assigned.map Prod.fst).filter (· ∈ s.queued n ++ [r]) =
          (s.assigned.map Prod.fst).filter (· ∈ s.queued n) := by
        refine List.filter_congr fun q hq => ?_
        have hne : q ≠ r := fun hqr => hnew (hqr ▸ hq)
        simp [hne]
      simp only [Function.update_self, if_true]
      rw [hsame, ← List.append_assoc, h.inOrder n]
    · simp only [Function.update_of_ne hn, if_neg hn]
      exact h.inOrder n
  · by_cases hnn : n = name
    · exact hnn ▸ hfull
    · exact h.full n fun hnil => hn ((hq n).trans ((if_neg hnn).trans hnil))
  · by_cases hn : n = name
    · subst hn
      dsimp only at hqn
      rw [Function.update_self, List.mem_append] at hqn
      rcases hqn with hqn | hqn
      · exact h.queued n q hqn
      · rw [List.mem_singleton.mp hqn]
        exact ⟨hr, hname⟩
    · dsimp only at hqn
      rw [Function.update_of_ne hn] at hqn
      exact h.queued n q hqn
  · have hqn := (hq n) ▸ hqn
    split_ifs at hqn
    · rcases List.mem_append.mp hqn with hqn | hqn
      · exact h.waiting name q hqn
      · rw [List.mem_singleton.mp hqn]
        exact ha
    · exact h.waiting n q hqn

lemma Waits.addRequest (h : s.Waits O) (hp : s.Inv O) (name : ν) : (addRequest O s name).Waits O := by
  have hreq := h.request name
  have hpreq := hp.request name
  unfold Agent.addRequest
  dsimp only
  set u : Agent ν := { s with
    made := s.made + 1
    name := Function.update s.name s.made name
    agent := Function.update s.agent s.made true
    sockets := Function.update s.sockets name (some (s.inUse name)) } with hu
  have hmade : s.made < u.made := Nat.lt_succ_self _
  have hname : u.name s.made = name := Function.update_self ..
  have hagent : u.agent s.made = true := Function.update_self ..
  have hsock : u.sockets name = some (u.inUse name) := by simp [hu, inUse]
  have hqueued : ∀ n, s.made ∉ u.queued n := fun n hin => absurd (h.queued n _ hin).1 (Nat.lt_irrefl _)
  have hnew : s.made ∉ u.assigned.map Prod.fst := fun hin =>
    absurd (h.assigned _ hin) (Nat.lt_irrefl _)
  rw [hpreq.free_nil name]
  dsimp only
  split_ifs with hroom
  · simp only [createConnection, pushSocket, onSocket, hsock]
    exact hreq.fresh hpreq hmade hagent hqueued hnew
  · refine hreq.enqueue hmade hname hagent hqueued hnew fun max hmax => ?_
    simpa [hasRoom, Option.mem_def.mp hmax, hpreq.free_nil name] using hroom

lemma Waits.step (h : s.Waits O) (hp : s.Inv O) {i : Input ν} (hok : s.Serving i) :
    (s.step O i).Waits O := by
  cases i with
  | addRequest name => exact h.addRequest hp name
  | responseEnd x reuse => exact h.responseEnd hp hok
  | socketClose x =>
    simp only [Agent.step]
    split_ifs with hc
    · exact h
    · refine h.drop hp hok (fun y hne => Function.update_of_ne hne _ _) fun _ => ?_
      exact not_le.mp fun hle => hc (.inr hle)
  | agentRemove x => exact h.drop hp hok (fun _ _ => rfl) (h.closed x)

end Agent

end LowJs.HTTP
