import LowJs.Collections.Refinement

/-!
# Iteration while the collection changes

What an iterator gives of a key that is not deleted under way: it is given once if it is there when the
iterator finishes, whether it was there when the iterator was made or was set later, and otherwise not at all.
-/

namespace LowJs.Collections

variable {α : Type*} [JSValue α] {proto : Proto} {c : Collection α} {d : Data α} {key : α} {j k n : Nat}

/-- The key that an iterator of keys or entries gives. -/
def Yield.first : Yield α → Option α
  | .one v => v
  | .pair k _ => k

/-- A step of the iterator `j` that gives the key. -/
def gives (j : Nat) (key : α) : Op α × Answer α → Bool
  | (.next i, .result false (some y)) => i == j && y.first.any (is · key)
  | _ => false

/-- The calls that leave the key where it is. -/
def Keeps (key : α) : Op α → Prop
  | .clear => False
  | .delete k => ¬ is k key
  | _ => True

instance (key : α) : ∀ op, Decidable (Keeps key op)
  | .clear => isFalse id
  | .delete k => inferInstanceAs (Decidable (¬ is k key))
  | .get _ | .has _ | .set .. | .add _ | .size | .keys | .values | .entries | .next _ => isTrue trivial

/-- The key is at one of the first places. -/
def Passed (entries : List (Option (α × α))) (n : Nat) (key : α) : Prop :=
  ∃ k < n, ∃ e, entries[k]? = some (some e) ∧ is e.1 key

lemma Refines.place_eq (h : Refines proto c d) {e e' : α × α} {k' : Nat}
    (he : d.entries[k]? = some (some e)) (he' : d.entries[k']? = some (some e')) (hk : is e.1 key)
    (hk' : is e'.1 key) : k = k' := by
  refine Slots.rank_injective he he' (h.distinct.index_eq (x := e.1) (y := e'.1) ?_ ?_ hk hk')
  · simp [Data.live, Slots.getElem?_rank he]
  · simp [Data.live, Slots.getElem?_rank he']

/-- The number of times a key was given, against the place of the iterator. -/
structure Seen (proto : Proto) (j : Nat) (key : α) (d : Data α) (log : List (Op α × Answer α)) : Prop where
  shows : ∃ cur, d.cursors[j]? = some cur ∧ (proto.isMap → cur.arrays ≠ .values) ∧
    ((log.countP (gives j key) = 1 ∧ Passed d.entries cur.index key) ∨
      (log.countP (gives j key) = 0 ∧ ¬ Passed d.entries cur.index key))

lemma passed_congr {s t : List (Option (α × α))}
    (h : ∀ k < n, (∃ e, s[k]? = some (some e) ∧ is e.1 key) ↔ ∃ e, t[k]? = some (some e) ∧ is e.1 key) :
    Passed s n key ↔ Passed t n key :=
  exists_congr fun k => and_congr_right fun hk => h k hk

/-- A call that gives nothing and keeps the cursors, and the key where it was. -/
lemma Seen.of_passed {log : List (Op α × Answer α)} (h : Seen proto j key d log)
    (hr : Refines proto c d) {d' : Data α} {op : Op α} {a : Answer α} (hg : gives j key (op, a) = false)
    (hcur : ∀ cur, d.cursors[j]? = some cur → d'.cursors[j]? = some cur)
    (hp : ∀ n ≤ d.entries.length, Passed d'.entries n key ↔ Passed d.entries n key) :
    Seen proto j key d' (log ++ [(op, a)]) := by
  obtain ⟨cur, hc, hshow, hcount⟩ := h.shows
  obtain ⟨it, hi⟩ : ∃ it, c.iters[j]? = some it := by
    have hlt := (List.getElem?_eq_some_iff.mp hc).1
    exact ⟨_, List.getElem?_eq_getElem (hr.length ▸ hlt)⟩
  refine ⟨cur, hcur cur hc, hshow, ?_⟩
  rw [hp _ (hr.follows j it cur hi hc).bound, List.countP_append]
  simpa [hg] using hcount

lemma Data.passed_put {key' value : α} {found : Option Nat}
    (hf : d.find key' = found) (hn : n ≤ d.entries.length) :
    Passed (d.put found key' value).entries n key ↔ Passed d.entries n key := by
  cases found with
  | none =>
    refine passed_congr fun k hk => ?_
    simp only [Data.put]
    rw [List.getElem?_append_left (hk.trans_le hn)]
  | some k' =>
    obtain ⟨e, he, -⟩ := Data.find_some hf
    refine passed_congr fun k hk => ?_
    simp only [Data.put, Data.entry_eq he, Option.map_some, List.getElem?_set]
    split_ifs with hkk hlt
    · subst hkk
      simp [he]
    · have := (List.getElem?_eq_some_iff.mp he).1
      omega
    · rfl

lemma Data.passed_delete {key' : α} (hf : d.find key' = some k)
    (hkey : ¬ is key' key) : Passed (d.entries.set k none) n key ↔ Passed d.entries n key := by
  obtain ⟨e, he, hk⟩ := Data.find_some hf
  refine passed_congr fun i _ => ?_
  rw [List.getElem?_set]
  split_ifs with hik hlt
  · subst hik
    constructor
    · rintro ⟨e', he', -⟩
      cases he'
    · rintro ⟨e', he', hk'⟩
      rw [he] at he'
      cases he'
      exact absurd (is_trans (is_symm hk) hk') hkey
  · have := (List.getElem?_eq_some_iff.mp he).1
    omega
  · rfl

/-- Between the place of an iterator and the place it gives there is nothing. -/
lemma passed_next {cur : Cursor} {e : α × α} (hp : Slots.next d.entries cur.index = some k)
    (he : d.entries[k]? = some (some e)) :
    Passed d.entries (k + 1) key ↔ Passed d.entries cur.index key ∨ is e.1 key := by
  obtain ⟨hle, -, -, hrank⟩ := Slots.next_some hp
  constructor
  · rintro ⟨i, hi, e', he', hk'⟩
    rcases Nat.lt_succ_iff_lt_or_eq.mp hi with hlt | rfl
    · refine .inl ⟨i, ?_, e', he', hk'⟩
      rw [← Slots.rank_lt_rank_iff he', ← hrank]
      exact (Slots.rank_lt_rank_iff he').mpr hlt
    · rw [he] at he'
      cases he'
      exact .inr hk'
  · rintro (⟨i, hi, e', he', hk'⟩ | hk)
    · exact ⟨i, by omega, e', he', hk'⟩
    · exact ⟨k, Nat.lt_succ_self k, e, he, hk⟩

lemma Refines.not_passed (hr : Refines proto c d) {cur : Cursor} {e : α × α}
    (hp : Slots.next d.entries cur.index = some k) (he : d.entries[k]? = some (some e))
    (hk : is e.1 key) : ¬ Passed d.entries cur.index key := by
  rintro ⟨i, hi, e', he', hk'⟩
  have hle := (Slots.next_some hp).1
  have := hr.place_eq he' he hk' hk
  omega

omit [JSValue α] in
/-- An iterator that shows the keys gives the key of the entry. -/
lemma Follows.first_give {it : Iter} {cur : Cursor} (hf : Follows proto d.entries it cur)
    (hs : proto.isMap → cur.arrays ≠ .values) (hsame : proto.isMap = false → ∀ e ∈ d.live, e.1 = e.2)
    {e : α × α} (he : e ∈ d.live) : (Data.give cur.arrays (some e)).first = some e.1 := by
  have hfits := hf.fits
  rw [hf.arrays] at hfits
  cases hm : proto.isMap with
  | true =>
    rw [hm] at hfits
    have hv := hs hm
    cases harr : cur.arrays <;> simp_all [Data.give, Yield.first]
  | false =>
    rw [hm] at hfits
    have he' := hsame hm e he
    cases harr : cur.arrays <;> simp_all [Data.give, Yield.first]

lemma Seen.next {log : List (Op α × Answer α)} (h : Seen proto j key d log) (hr : Refines proto c d)
    (i : Nat) : Seen proto j key (d.next i).1 (log ++ [(.next i, (d.next i).2)]) := by
  obtain ⟨cur, hc, hshow, hcount⟩ := h.shows
  obtain ⟨it, hi⟩ : ∃ it, c.iters[j]? = some it := by
    have hlt := (List.getElem?_eq_some_iff.mp hc).1
    exact ⟨_, List.getElem?_eq_getElem (hr.length ▸ hlt)⟩
  have hf := hr.follows j it cur hi hc
  by_cases hij : i = j
  · subst hij
    simp only [Data.next, hc]
    cases hp : d.place cur with
    | none =>
      refine ⟨{ cur with done := true }, ?_, hshow, ?_⟩
      · simp [(List.getElem?_eq_some_iff.mp hc).1]
      · simpa [gives] using hcount
    | some k =>
      rw [Data.place] at hp
      split_ifs at hp
      obtain ⟨-, -, ⟨e, he⟩, -⟩ := Slots.next_some hp
      have hlive : e ∈ d.live := by
        rw [Data.live, List.reduceOption_mem_iff]
        exact List.mem_of_getElem? he
      have hg : gives i key (.next i, .result false (some (Data.give cur.arrays (d.entry k)))) =
          is e.1 key := by
        simp [gives, Data.entry_eq he, hf.first_give hshow hr.same hlive]
      refine ⟨{ cur with index := k + 1 }, ?_, hshow, ?_⟩
      · simp [(List.getElem?_eq_some_iff.mp hc).1]
      · dsimp only
        rw [passed_next hp he, List.countP_append, List.countP_singleton, hg]
        cases hk : is e.1 key with
        | true =>
          have hnot := hr.not_passed hp he hk
          simpa [hnot] using hcount
        | false => simpa using hcount
  · have hg : gives j key (.next i, (d.next i).2) = false := by
      cases ha : (d.next i).2 with
      | result done value => cases done <;> cases value <;> simp [gives, hij]
      | _ => rfl
    refine h.of_passed hr hg (fun cur' hc' => ?_) fun n _ => ?_
    · simp only [Data.next]
      split
      · exact hc'
      · split <;> simp [hij, hc']
    · simp only [Data.next]
      split
      · rfl
      · split <;> rfl

lemma Seen.call {log : List (Op α × Answer α)} {op : Op α} (h : Seen proto j key d log)
    (hr : Refines proto c d) (hk : Keeps key op) :
    Seen proto j key (d.call proto op).1 (log ++ [(op, (d.call proto op).2)]) := by
  by_cases hhas : proto.has op
  · have hn : ¬ (!proto.has op) = true := by simp [hhas]
    rw [Data.call.eq_def, if_neg hn]
    cases op with
    | get key' | has key' =>
      simp only [Data.withKey]
      split_ifs <;> exact h.of_passed hr rfl (fun _ hc => hc) fun _ _ => Iff.rfl
    | set key' value =>
      simp only [Data.withKey]
      split_ifs
      · exact h.of_passed hr rfl (fun _ hc => hc) fun _ _ => Iff.rfl
      · refine h.of_passed hr rfl (fun _ hc => ?_) fun n hn => Data.passed_put rfl hn
        cases d.find key' <;> exact hc
    | add value =>
      simp only [Data.withKey]
      cases hf : d.find value with
      | none =>
        simp only [Option.isSome_none, Bool.false_eq_true, if_false]
        split_ifs
        · exact h.of_passed hr rfl (fun _ hc => hc) fun _ _ => Iff.rfl
        · exact h.of_passed hr rfl (fun _ hc => hc) fun n hn => Data.passed_put hf hn
      | some k =>
        simp only [Option.isSome_some, if_true]
        split_ifs <;> exact h.of_passed hr rfl (fun _ hc => hc) fun _ _ => Iff.rfl
    | delete key' =>
      simp only [Data.withKey]
      split_ifs
      · exact h.of_passed hr rfl (fun _ hc => hc) fun _ _ => Iff.rfl
      · cases hf : d.find key' with
        | none => exact h.of_passed hr rfl (fun _ hc => hc) fun _ _ => Iff.rfl
        | some k => exact h.of_passed hr rfl (fun _ hc => hc) fun n _ => Data.passed_delete hf hk
    | clear => exact absurd hk id
    | size =>
      dsimp only
      split_ifs <;> exact h.of_passed hr rfl (fun _ hc => hc) fun _ _ => Iff.rfl
    | keys | values | entries =>
      exact h.of_passed hr rfl (fun cur hc =>
        (List.getElem?_append_left (List.getElem?_eq_some_iff.mp hc).1).trans hc) fun _ _ => Iff.rfl
    | next i => exact h.next hr i
  · have hn : (!proto.has op) = true := by simp [hhas]
    rw [Data.call.eq_def, if_pos hn]
    refine h.of_passed hr ?_ (fun _ hc => hc) fun _ _ => Iff.rfl
    cases op <;> rfl

/-- A new iterator has given nothing. -/
lemma seen_iterator (d : Data α) {arrays : Arrays} (hs : proto.isMap → arrays ≠ .values) (op : Op α)
    (key : α) : Seen proto d.cursors.length key (d.iterator arrays).1 [(op, (d.iterator arrays).2)] := by
  refine ⟨⟨0, false, arrays⟩, List.getElem?_concat_length .., hs, .inr ⟨?_, ?_⟩⟩
  · cases op <;> rfl
  · rintro ⟨k, hk, -⟩
    exact Nat.not_lt_zero k hk

/-- When an iterator finishes, it has passed every key. -/
lemma Data.passed_iff {cur : Cursor}
    (hp : Slots.next d.entries cur.index = none) :
    Passed d.entries cur.index key ↔ (d.find key).isSome := by
  constructor
  · rintro ⟨k, -, e, he, hk⟩
    cases hf : d.find key with
    | some k' => rfl
    | none =>
      refine absurd hk (Data.find_none hf e ?_)
      rw [Data.live, List.reduceOption_mem_iff]
      exact List.mem_of_getElem? he
  · intro hsome
    obtain ⟨k, hf⟩ := Option.isSome_iff_exists.mp hsome
    obtain ⟨e, he, hk⟩ := Data.find_some hf
    refine ⟨k, (Slots.rank_lt_rank_iff he).mp ?_, e, he, hk⟩
    rw [Slots.next_none hp]
    exact (List.getElem?_eq_some_iff.mp (Slots.getElem?_rank he)).1

/-- What an iterator that finishes has given. -/
lemma Seen.finished {log : List (Op α × Answer α)} (h : Seen proto j key d log) (hr : Refines proto c d)
    (hp : proto.objectOnly = false) {it : Iter} (hi : c.iters[j]? = some it) (hd : it.done = false)
    (hdone : (Collections.call proto c (.next j)).2 = .result true none) :
    log.countP (gives j key) = 1 ↔ (Collections.call proto c (.has key)).2 = .bool true := by
  obtain ⟨cur, hc, -, hcount⟩ := h.shows
  have hf := hr.follows j it cur hi hc
  have hnext : Slots.next d.entries cur.index = none := by
    cases hn : Slots.next d.entries cur.index with
    | none => rfl
    | some k =>
      obtain ⟨-, -, ⟨e, he⟩, hrank⟩ := Slots.next_some hn
      have hin := (List.getElem?_eq_some_iff.mp (Slots.getElem?_rank he)).1
      rw [hrank, ← hf.p hd, ← Data.live, ← hr.array_length hf] at hin
      simp [Collections.call, Proto.has, Collection.next, hi, hd, hin] at hdone
  have hhas : (Collections.call proto c (.has key)).2 = .bool true ↔ Passed d.entries cur.index key := by
    rw [Data.passed_iff hnext]
    simp [Collections.call, Proto.has, Collection.sharedHas, hr.protoHas_eq, hp]
  rw [hhas]
  rcases hcount with ⟨h1, hpassed⟩ | ⟨h0, hpassed⟩
  · exact iff_of_true h1 hpassed
  · exact iff_of_false (by omega) hpassed

/-- The run from the call that makes the iterator on, beside the run of the entries. -/
lemma Refines.seen_run (hr : Refines proto c d) {mid : List (Op α)} {op : Op α}
    (hp : proto.objectOnly = false) (hop : op = .keys ∨ op = .entries)
    (hmid : (calls proto).Guarded (fun s op => Orderly s.1 op ∧ Keeps key op) (c, []) (op :: mid)) :
    ∃ d', Refines proto ((calls proto).run (c, []) (op :: mid)).1 d' ∧
      Seen proto c.iters.length key d' ((calls proto).run (c, []) (op :: mid)).2 := by
  obtain ⟨⟨ho, -⟩, hmid⟩ := hmid
  obtain ⟨hanswer, hr'⟩ := hr.call ho
  have hstart : Seen proto c.iters.length key (d.call proto op).1 [(op, (d.call proto op).2)] := by
    rw [hr.length]
    rcases hop with rfl | rfl
    · simp only [Data.call, Proto.has, hp]
      exact seen_iterator _ (by cases proto <;> simp [Proto.isMap]) _ _
    · simp only [Data.call, Proto.has, hp]
      exact seen_iterator _ (by cases proto <;> simp [Proto.isMap]) _ _
  let R := fun (s : Collection α × List (Op α × Answer α)) (t : Data α × List (Op α × Answer α)) =>
    Refines proto s.1 t.1 ∧ s.2 = t.2 ∧ Seen proto c.iters.length key t.1 t.2
  have hstep : ∀ s t op, R s t → Orderly s.1 op ∧ Keeps key op →
      R ((calls proto).step s op) ((Data.calls proto).step t op) := by
    intro s t op hR ho
    obtain ⟨hr, hlog, hseen⟩ := hR
    refine ⟨(hr.call ho.1).2, ?_, hseen.call hr ho.2⟩
    simp [calls, Data.calls, hlog, (hr.call ho.1).1]
  have hrun := Machine.run_related (N := Data.calls proto) (R := R)
    (t := ((d.call proto op).1, [(op, (d.call proto op).2)])) hstep ⟨hr', by simp [calls, hanswer], hstart⟩ hmid
  obtain ⟨hr', hlog, hseen⟩ := hrun
  rw [← hlog] at hseen
  exact ⟨_, hr', hseen⟩

end LowJs.Collections
