/-
  OraOS.Lib.Journal — sessions that note what they commit, against serial runs.

  A serial run is a fold of the calls over the state, each one whole.  The committed
  state is serializable when some order of the noted calls leads to a state that looks
  the same.

    * `serializable_of_replay` — the order of the commits is an order;
    * `Session.replays`        — if every commit does what its call does on its own on
                                 what is committed then, the order of the commits leads
                                 to the very same state;
    * `Session.noted`          — sessions without a journal, with one: `Knows.noted` is
                                 what is known of them, `noted_commit` their commits;
    * `Session.watched`        — and with a note of what each session has read.
-/
import OraOS.Lib.Sessions

namespace OraOS.Lib

variable {σ α β : Type*}

/-- A state, and the calls that committed on the way to it, in their order. -/
structure Journal (σ α : Type*) where
  db : σ
  log : List α

/-- Nothing has committed yet. -/
def Journal.blank (db : σ) : Journal σ α := ⟨db, []⟩

/-- The state after a commit, with the call noted. -/
def Journal.note (s : Journal σ α) (db : σ) (a : α) : Journal σ α := ⟨db, s.log ++ [a]⟩

@[simp] theorem Journal.note_db (s : Journal σ α) (db : σ) (a : α) : (s.note db a).db = db := rfl

@[simp] theorem Journal.note_log (s : Journal σ α) (db : σ) (a : α) :
    (s.note db a).log = s.log ++ [a] := rfl

/-- A table that only the noted commits add to: what it was, and the rows of each. -/
theorem Journal.grown {table : σ → List β} {rows : α → List β} {first : List β}
    {s : Journal σ α} (h : table s.db = first ++ s.log.flatMap rows) {db : σ} {a : α}
    (hdb : table db = table s.db ++ rows a) :
    table (s.note db a).db = first ++ (s.note db a).log.flatMap rows := by
  rw [note_db, note_log, hdb, h, List.flatMap_append, List.append_assoc]
  simp

/-- Some order of the committed calls, one after the other from `start`, leads to a
state that looks the same. -/
def Journal.Serializable (exec : σ → α → Option σ) (look : σ → β) (start : σ)
    (s : Journal σ α) : Prop :=
  ∃ order t, order.Perm s.log ∧ System.replay exec order start = some t ∧ look t = look s.db

theorem replay_append (f : σ → α → Option σ) (as bs : List α) :
    ∀ s : σ, System.replay f (as ++ bs) s = (System.replay f as s).bind (System.replay f bs) := by
  induction as with
  | nil => intro s; rfl
  | cons a as ih =>
      intro s
      show (f s a).bind (System.replay f (as ++ bs)) = ((f s a).bind (System.replay f as)).bind _
      cases f s a with
      | none => rfl
      | some t => exact ih t

theorem replay_snoc {f : σ → α → Option σ} {as : List α} {a : α} {s t u : σ}
    (h : System.replay f as s = some t) (ha : f t a = some u) :
    System.replay f (as ++ [a]) s = some u := by
  rw [replay_append, h]
  show System.replay f [a] t = some u
  show (f t a).bind (System.replay f []) = some u
  rw [ha]
  rfl

/-- What the log replays to is what some serial order leaves: the order of the log. -/
theorem Journal.serializable_of_replay {exec : σ → α → Option σ} {start : σ}
    {s : Journal σ α} (h : System.replay exec s.log start = some s.db) (look : σ → β) :
    s.Serializable exec look start :=
  ⟨s.log, s.db, .refl _, h, rfl⟩

/-- Two committed calls leave two orders to look at. -/
theorem Journal.Serializable.pair {exec : σ → α → Option σ} {look : σ → β} {start : σ}
    {s : Journal σ α} (h : s.Serializable exec look start) (htwo : s.log.length = 2) :
    (System.replay exec s.log start).map look = some (look s.db)
      ∨ (System.replay exec s.log.reverse start).map look = some (look s.db) := by
  obtain ⟨order, t, hperm, hrun, hlook⟩ := h
  have hseen : (System.replay exec order start).map look = some (look s.db) := by
    rw [hrun, ← hlook]
    rfl
  obtain ⟨a, b, hlog⟩ := List.length_eq_two.mp htwo
  rw [hlog] at hperm ⊢
  -- two entries have two orders
  rcases List.perm_pair.mp hperm with rfl | rfl
  · exact .inl hseen
  · exact .inr hseen

namespace Session

variable {τ ρ κ ω ε : Type*} [DecidableEq κ] {P : Session (Journal σ α) τ ρ κ ω ε}

/-- **Commits in their own order**: in runs whose steps all meet `C`, if a commit that
meets it either changes nothing or does what its call does on its own, then the noted
calls, one after the other, lead to what is committed. -/
theorem replays {exec : σ → α → Option σ} {init : Journal σ α → Prop} {start : σ}
    (hinit : ∀ s, init s → s = .blank start)
    {C : Sessions (Journal σ α) τ κ → SessionEvent ρ ω ε → Prop}
    (henv : ∀ s e, P.env s e = s)
    (hcommit : ∀ c i o t s' t', (P.interleaved init).Reachable c → C c (.run i o) →
      c.running i = some t → P.turn o c.shared t = .commit s' t' →
      s' = c.shared ∨ ∃ a, s' = c.shared.note s'.db a ∧ exec c.shared.db a = some s'.db)
    {c : Sessions (Journal σ α) τ κ} (h : ((P.interleaved init).restrict C).Reachable c) :
    System.replay exec c.shared.log start = some c.shared.db := by
  induction h with
  | init h0 =>
      rw [hinit _ h0.1]
      rfl
  | @step c c' e hc hs ih =>
      have hreach := System.restrict_reachable hc
      cases P.act_moved hs.2 with
      | began _ => exact ih
      | went _ _ => exact ih
      | locked _ _ _ => exact ih
      | committed hi hturn =>
          -- a commit that notes nothing has written nothing
          rcases hcommit _ _ _ _ _ _ hreach hs.1 hi hturn with hsame | ⟨a, hnote, hexec⟩
          · rw [hsame]
            exact ih
          · show System.replay exec _ start = some _
            rw [hnote]
            exact replay_snoc ih hexec
      | rolledBack _ _ => exact ih
      | dropped => exact ih
      | elsewhere =>
          rw [henv]
          exact ih

end Session

/-! ## Sessions, with a journal. -/

/-- The same turn, beside a journal; a commit notes `a`. -/
def Turn.noted {τ κ : Type*} (s : Journal σ α) (a : α) : Turn σ τ κ → Turn (Journal σ α) τ κ
  | .go t => .go t
  | .lock k t => .lock k t
  | .commit db t => .commit (s.note db a) t
  | .rollback t => .rollback t
  | .idle => .idle

namespace Session

variable {τ ρ κ ω ε : Type*}

/-- The same sessions; whoever commits from `t` notes `entry t`. -/
def noted (P : Session σ τ ρ κ ω ε) (entry : τ → α) : Session (Journal σ α) τ ρ κ ω ε where
  start := P.start
  turn o s t := (P.turn o s.db t).noted s (entry t)
  env s e := { s with db := P.env s.db e }

variable {P : Session σ τ ρ κ ω ε} {entry : τ → α}

/-- A journal changes no move but a commit, which it notes; one lemma for each kind of
move. -/
theorem noted_go {o : ω} {s : Journal σ α} {t t' : τ} (h : (P.noted entry).turn o s t = .go t') :
    P.turn o s.db t = .go t' := by
  have hturn : (P.turn o s.db t).noted s (entry t) = .go t' := h
  cases ht : P.turn o s.db t <;> rw [ht] at hturn <;> cases hturn
  rfl

theorem noted_lock {o : ω} {s : Journal σ α} {t t' : τ} {k : κ}
    (h : (P.noted entry).turn o s t = .lock k t') : P.turn o s.db t = .lock k t' := by
  have hturn : (P.turn o s.db t).noted s (entry t) = .lock k t' := h
  cases ht : P.turn o s.db t <;> rw [ht] at hturn <;> cases hturn
  rfl

/-- A commit beside a journal: the same commit, noted. -/
theorem noted_commit {o : ω} {s s' : Journal σ α} {t t' : τ}
    (h : (P.noted entry).turn o s t = .commit s' t') :
    P.turn o s.db t = .commit s'.db t' ∧ s' = s.note s'.db (entry t) := by
  have hturn : (P.turn o s.db t).noted s (entry t) = .commit s' t' := h
  cases ht : P.turn o s.db t <;> rw [ht] at hturn <;> cases hturn
  exact ⟨rfl, rfl⟩

theorem noted_rollback {o : ω} {s : Journal σ α} {t t' : τ}
    (h : (P.noted entry).turn o s t = .rollback t') : P.turn o s.db t = .rollback t' := by
  have hturn : (P.turn o s.db t).noted s (entry t) = .rollback t' := h
  cases ht : P.turn o s.db t <;> rw [ht] at hturn <;> cases hturn
  rfl

/-- A journal takes nothing away from what is known. -/
theorem Knows.noted {inv : σ → Prop} {know : σ → τ → Prop} {holds : τ → κ → Prop}
    (K : P.Knows inv know holds) :
    (P.noted entry).Knows (fun s => inv s.db) (fun s t => know s.db t) holds where
  start s r h := K.start s.db r h
  go o s t t' h hk hturn := K.go o s.db t t' h hk (noted_go hturn)
  lock o s t t' k h hk hturn := K.lock o s.db t t' k h hk (noted_lock hturn)
  commit o s t s' t' h hk hturn := by
    -- the note at a commit is nothing a session reads
    obtain ⟨hcommit, -⟩ := noted_commit hturn
    obtain ⟨hinv, hmine, hnone, hothers⟩ := K.commit o s.db t s'.db t' h hk hcommit
    exact ⟨hinv, hmine, hnone, hothers⟩
  rollback o s t t' h hk hturn := K.rollback o s.db t t' h hk (noted_rollback hturn)
  env s e h := K.env s.db e h

end Session

/-! ## Sessions, with a note of what they have read. -/

namespace Session

variable {τ ρ κ ω ε : Type*}

/-- The same sessions, each with a note beside its local state; `look s t` is what a
statement that begins in `t` and sees `s` makes of the note. -/
def watched (P : Session σ τ ρ κ ω ε) (blank : β) (look : σ → τ → β → β) :
    Session σ (τ × β) ρ κ ω ε where
  start r := (P.start r, blank)
  turn o s t := (P.turn o s t.1).map (fun u => (u, look s t.1 t.2)) id
  env := P.env

variable {P : Session σ τ ρ κ ω ε} {blank : β} {look : σ → τ → β → β} {o : ω} {s s' : σ}
  {t u : τ × β} {k : κ}

/-- A note changes no move, and is brought up to date with it; one lemma for each kind
of move. -/
theorem watched_go (h : (P.watched blank look).turn o s t = .go u) :
    P.turn o s t.1 = .go u.1 ∧ u.2 = look s t.1 t.2 := by
  obtain ⟨t', hturn, rfl⟩ := Turn.map_go h
  exact ⟨hturn, rfl⟩

theorem watched_lock (h : (P.watched blank look).turn o s t = .lock k u) :
    P.turn o s t.1 = .lock k u.1 ∧ u.2 = look s t.1 t.2 := by
  obtain ⟨k', t', hturn, rfl, rfl⟩ := Turn.map_lock h
  exact ⟨hturn, rfl⟩

theorem watched_commit (h : (P.watched blank look).turn o s t = .commit s' u) :
    P.turn o s t.1 = .commit s' u.1 := by
  obtain ⟨t', hturn, rfl⟩ := Turn.map_commit h
  exact hturn

theorem watched_rollback (h : (P.watched blank look).turn o s t = .rollback u) :
    P.turn o s t.1 = .rollback u.1 := by
  obtain ⟨t', hturn, rfl⟩ := Turn.map_rollback h
  exact hturn

/-- A note takes nothing away from what is known. -/
theorem Knows.watched {inv : σ → Prop} {know : σ → τ → Prop} {holds : τ → κ → Prop}
    (K : P.Knows inv know holds) :
    (P.watched blank look).Knows inv (fun s t => know s t.1) (fun t => holds t.1) where
  start s r h := K.start s r h
  go o s t t' h hk hturn := K.go o s t.1 t'.1 h hk (watched_go hturn).1
  lock o s t t' k h hk hturn := K.lock o s t.1 t'.1 k h hk (watched_lock hturn).1
  commit o s t s' t' h hk hturn := by
    obtain ⟨hinv, hmine, hnone, hothers⟩ :=
      K.commit o s t.1 s' t'.1 h hk (watched_commit hturn)
    exact ⟨hinv, hmine, hnone, fun u hu => hothers u.1 hu⟩
  rollback o s t t' h hk hturn := K.rollback o s t.1 t'.1 h hk (watched_rollback hturn)
  env s e h := by
    obtain ⟨hinv, hall⟩ := K.env s e h
    exact ⟨hinv, fun u hu => hall u.1 hu⟩

end Session

end OraOS.Lib
