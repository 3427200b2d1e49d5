import ExactNeighbors.Proofs.Store.Rebuild

/-! # Calls in one piece or in several

An insertion places its rows one by one, so that two insertions place what one of both buffers
would. A deletion is different: it looks at all labels before it writes. Still a label that is named
twice in one call is refused for the same reason as one that an earlier call has deleted, and what a
deletion leaves depends only on which labels it was given: coherent stores that agree on the dead
slots agree on the free ones too.
-/
namespace ExactNeighbors.Store

variable {α : Type} {s t u : Store α} {first second labels others : List Nat}
variable {rows rows' : List (List Single)} {n m : Nat}

theorem placeAll_concat (hfirst : s.placeAll rows = .ok (labels, t))
    (hsecond : t.placeAll rows' = .ok (others, u)) :
    s.placeAll (rows ++ rows') = .ok (labels ++ others, u) := by
  induction rows generalizing s labels with
  | nil =>
    cases hfirst
    exact hsecond
  | cons row rows ih =>
    rw [placeAll] at hfirst
    rw [List.cons_append, placeAll]
    cases hplace : s.place row with
    | error e =>
      rw [hplace] at hfirst
      cases hfirst
    | ok next =>
      rw [hplace] at hfirst
      cases hrest : next.placeAll rows with
      | error e =>
        dsimp only [bind, Except.bind] at hfirst
        rw [hrest] at hfirst
        cases hfirst
      | ok answer =>
        dsimp only [bind, Except.bind] at hfirst ⊢
        rw [hrest] at hfirst
        cases hfirst
        rw [ih hrest]
        rfl

/-- The room for all rows is enough for the rows that are left when some have been placed. -/
theorem PlacedAll.roomFault?_eq_none (h : Coherent s) (p : PlacedAll s rows t)
    (hroom : s.roomFault? (rows.length + m) = none) : t.roomFault? m = none := by
  have hphysical := p.physical_le h
  have hcodes := (p.coherent h).codes_length
  rw [roomFault?_eq_none_iff] at hroom ⊢
  rw [p.codec_eq] at hcodes
  rw [p.codec_eq, p.memory_eq]
  rw [h.codes_length, ← Nat.add_mul, ← Nat.add_assoc] at hroom
  rw [hcodes, ← Nat.add_mul]
  have hslots : t.physical + m ≤ s.physical + rows.length + m := by omega
  exact ⟨(Nat.mul_le_mul_right _ (Nat.le_add_left m _)).trans_lt hroom.1,
    hroom.2.mono (Nat.mul_le_mul_right _ (Nat.mul_le_mul_right _ hslots)) hslots⟩

/-- Room for two buffers together is room for one after the other. -/
theorem add_append (h : Coherent s) (htrained : s.codec.isTrained = true) {x y : List Single}
    (hx : x.length = n * s.dimension) (hy : y.length = m * s.dimension)
    (hroom : 0 < n + m → s.reserve (n + m) = .ok ()) :
    ∃ labels t others u, s.add x = .ok (labels, t) ∧ t.add y = .ok (others, u) ∧
      s.add (x ++ y) = .ok (labels ++ others, u) := by
  have hd := h.dimension_pos
  have hxy : (x ++ y).length = (n + m) * s.dimension := by
    rw [List.length_append, hx, hy, Nat.add_mul]
  have hgranted : 0 < n + m → s.roomFault? (n + m) = none :=
    fun hpos => reserve_eq_ok_iff.mp (hroom hpos)
  have hfirst : s.addFault? x = none := by
    refine addFault?_of_reserve hd htrained hx fun hn => reserve_eq_ok_iff.mpr ?_
    exact roomFault?_mono (Nat.le_add_right n m) (hgranted (by omega))
  obtain ⟨t, ht, hp⟩ := add_eq_ok h hfirst
  have hdim : t.dimension = s.dimension := congrArg Codec.dimension hp.codec_eq
  have hsecond : t.addFault? y = none := by
    have hrows := Rows.length_split_whole hd hx
    refine addFault?_of_reserve (hdim ▸ hd) (hp.codec_eq ▸ htrained) (hdim ▸ hy) fun hm => ?_
    exact reserve_eq_ok_iff.mpr (hp.roomFault?_eq_none h (hrows.symm ▸ hgranted (by omega)))
  obtain ⟨u, hu, -⟩ := add_eq_ok (hp.coherent h) hsecond
  refine ⟨_, t, _, u, ht, hu, ?_⟩
  rw [add_eq_placeAll hfirst] at ht
  rw [add_eq_placeAll hsecond, hdim] at hu
  rw [add_eq_placeAll (addFault?_of_reserve hd htrained hxy hroom), Rows.split_append_whole hd hx,
    hdim]
  exact placeAll_concat ht hu

/-- One call is two calls: with the same outcome, and with the error of the first that fails. -/
theorem markDeleted_append (h : Coherent s) (first second : List Nat) :
    s.markDeleted (first ++ second) = match s.markDeleted first with
      | .ok (_, t) => t.markDeleted second
      | .error e => .error e := by
  rcases s.deletable_or_refused first with hd | ⟨earlier, label, rest, e, rfl, hd, he⟩
  · obtain ⟨t, hmark, ht, b⟩ := markDeleted_eq_ok h hd
    rw [hmark]
    dsimp only
    rcases t.deletable_or_refused second with hd' | ⟨earlier, label, rest, e, rfl, hd', he⟩
    · obtain ⟨u, hu, hcu, b'⟩ := markDeleted_eq_ok ht hd'
      obtain ⟨v, hv, hcv, both⟩ := markDeleted_eq_ok h (b.deletable_append h hd hd')
      have hsame : v = u := both.unique hcv hcu (b.trans b') fun _ => Iff.rfl
      rw [hu, hv, hsame, b.pending_eq, List.length_append, Nat.add_assoc]
    · rw [markDeleted_eq_error ht hd' he, ← List.append_assoc]
      exact markDeleted_eq_error h (b.deletable_append h hd hd') (b.refusal?_eq h _ _ ▸ he) rest
  · rw [markDeleted_eq_error h hd he, List.append_assoc, List.cons_append]
    exact markDeleted_eq_error h hd he _

theorem markDeleted_perm (h : Coherent s) (hperm : first.Perm second) {count : Nat}
    (hmark : s.markDeleted first = .ok (count, t)) : s.markDeleted second = .ok (count, t) := by
  obtain ⟨hd, ht, b⟩ := buried_of_markDeleted h hmark
  have hd' : s.Deletable second :=
    ⟨hperm.nodup_iff.mp hd.nodup, fun label hl => hd.live label (hperm.mem_iff.mpr hl)⟩
  obtain ⟨u, hu, hcu, b'⟩ := markDeleted_eq_ok h hd'
  have hsame : u = t := b'.unique hcu ht b fun _ => hperm.symm.mem_iff
  rw [hu, hsame, count_of_markDeleted h hmark, hperm.length_eq]

/-- It makes no difference how vectors and labels are divided into calls. One insertion of two
buffers hands out the labels of two insertions and leaves the same store. One deletion of two lists
does what two deletions do, also when it fails: it fails for the reason of the first of them that
does. And the order of the labels in a deletion that succeeds leaves no trace. -/
theorem one_call_or_two {memory : Memory} {codec : Codec α} {metric : Metric} {s₀ : Store α}
    (hnew : Store.new memory codec metric = .ok s₀) (calls : List Call) :
    let s := s₀.run calls
    (∀ (x y : List Single) (n m : Nat), codec.isTrained = true →
      x.length = n * codec.dimension → y.length = m * codec.dimension →
      (0 < n + m → s.reserve (n + m) = .ok ()) →
      ∃ labels t others u, s.add x = .ok (labels, t) ∧ t.add y = .ok (others, u) ∧
        s.add (x ++ y) = .ok (labels ++ others, u)) ∧
    (∀ first second, s.markDeleted (first ++ second) = match s.markDeleted first with
      | .ok (_, t) => t.markDeleted second
      | .error e => .error e) ∧
    (∀ first second count t, first.Perm second → s.markDeleted first = .ok (count, t) →
      s.markDeleted second = .ok (count, t)) := by
  intro s
  have h₀ := coherent_of_new hnew
  obtain ⟨h, hcodec⟩ : Coherent s ∧ s.codec = s₀.codec := h₀.run calls
  obtain ⟨rfl, -⟩ := eq_of_new hnew
  refine ⟨?_, markDeleted_append h, fun _ _ _ _ hperm hmark => markDeleted_perm h hperm hmark⟩
  intro x y n m htrained hx hy hroom
  have hdim : s.dimension = codec.dimension := congrArg Codec.dimension hcodec
  exact add_append h (hcodec ▸ htrained) (hdim ▸ hx) (hdim ▸ hy) hroom

/-- The first of two insertions takes the dead slot and the second one opens new slots. The second
of two deletions meets a label that the first one has deleted. -/
theorem one_call_or_two_recycled :
    let s₀ : Store Single := { memory := .host, codec := Codec.flat 1, metric := .l2 }
    let calls : List Call := [.add [⟨1⟩, ⟨2⟩, ⟨3⟩], .delete [1]]
    let s := s₀.run calls
    Store.new .host (Codec.flat 1) .l2 = .ok s₀ ∧ (Codec.flat 1).isTrained = true ∧
      (0 < 1 + 2 → s.reserve (1 + 2) = .ok ()) ∧
      (∃ labels t others u, s.add [⟨4⟩] = .ok (labels, t) ∧ t.add [⟨5⟩, ⟨6⟩] = .ok (others, u) ∧
        s.add [⟨4⟩, ⟨5⟩, ⟨6⟩] = .ok (labels ++ others, u)) ∧
      (∃ t, s.markDeleted [2, 0] = .ok (3, t) ∧ t.markDeleted [0] = .error (.alreadyDeleted 0 0) ∧
        s.markDeleted [2, 0, 0] = .error (.alreadyDeleted 0 0) ∧
        s.markDeleted [0, 2] = .ok (3, t)) := by
  intro s₀ calls s
  have hnew : Store.new .host (Codec.flat 1) .l2 = .ok s₀ := rfl
  have hroom : 0 < 1 + 2 → s.reserve (1 + 2) = .ok () :=
    fun _ => reserve_eq_ok_iff.mpr (by decide)
  obtain ⟨hadd, happend, hperm⟩ := one_call_or_two hnew calls
  obtain ⟨t, hmark⟩ : ∃ t, s.markDeleted [2, 0] = .ok (3, t) := by
    dsimp only [s, calls, s₀]
    exact ⟨_, rfl⟩
  have hboth : s.markDeleted [2, 0, 0] = .error (.alreadyDeleted 0 0) := by
    dsimp only [s, calls, s₀]
    rfl
  have hsecond := happend [2, 0] [0]
  rw [hmark] at hsecond
  exact ⟨hnew, rfl, hroom, hadd [⟨4⟩] [⟨5⟩, ⟨6⟩] 1 2 rfl rfl rfl hroom, t, hmark,
    hsecond.symm.trans hboth, hboth, hperm [2, 0] [0, 2] 3 t (List.Perm.swap 0 2 []) hmark⟩

end ExactNeighbors.Store
