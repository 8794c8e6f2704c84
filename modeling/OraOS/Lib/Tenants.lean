/-
  OraOS.Lib.Tenants — one store, many tenants.

  A computation over the store reads and writes rows of all tenants where the database
  does (foreign keys, cascades) and of one where row-level security confines it.
  `Confined` says of a computation, run for a tenant, that whatever it answers and
  whatever it writes is what it would answer and write on that tenant's rows alone:

    * `confined_bind`, `confined_read`, `confined_write`, …
                        — the rules for computations, statement by statement;
    * `answers_alone`   — in any order of confined requests of all tenants, each tenant's
                          rows and answers are those of its own requests alone.
-/
import Mathlib.Tactic

namespace OraOS.Lib

/-! ## §1. Rows of tenants. -/

/-- A row of some tenant, with its primary key. -/
class TenantRow (ρ : Type) (ι κ : outParam Type) where
  tenantOf : ρ → ι
  keyOf : ρ → κ

export TenantRow (tenantOf keyOf)

section

variable {ι κ ρ : Type} [DecidableEq ι] [TenantRow ρ ι κ] {t u : ι} {rows : List ρ}

/-- What row-level security lets a tenant see of a table. -/
def ownRows (t : ι) (rows : List ρ) : List ρ := rows.filter fun r => decide (tenantOf r = t)

@[simp] theorem mem_ownRows {r : ρ} : r ∈ ownRows t rows ↔ r ∈ rows ∧ tenantOf r = t := by
  unfold ownRows
  rw [List.mem_filter, decide_eq_true_eq]

@[simp] theorem ownRows_ownRows : ownRows t (ownRows t rows) = ownRows t rows := by
  unfold ownRows
  rw [List.filter_filter]
  simp only [Bool.and_self]

/-- An update that keeps the tenant of each row is one of the tenant's rows. -/
theorem ownRows_map {g : ρ → ρ} (hg : ∀ r, tenantOf (g r) = tenantOf r) :
    ownRows t (rows.map g) = (ownRows t rows).map g := by
  unfold ownRows
  rw [List.filter_map]
  refine congrArg _ (List.filter_congr fun r _ => ?_)
  show decide (tenantOf (g r) = t) = _
  rw [hg r]

theorem ownRows_filter {q : ρ → Bool} : ownRows t (rows.filter q) = (ownRows t rows).filter q := by
  unfold ownRows
  rw [List.filter_filter, List.filter_filter]
  exact List.filter_congr fun r _ => Bool.and_comm _ _

theorem ownRows_append {more : List ρ} : ownRows t (rows ++ more) = ownRows t rows ++ ownRows t more :=
  List.filter_append ..

theorem ownRows_own {more : List ρ} (h : ∀ r ∈ more, tenantOf r = t) : ownRows t more = more :=
  List.filter_eq_self.mpr fun r hr => decide_eq_true (h r hr)

/-- Rows of one tenant are nothing to another. -/
theorem ownRows_foreign {more : List ρ} (h : ∀ r ∈ more, tenantOf r = t) (hu : u ≠ t) :
    ownRows u more = [] := by
  refine List.filter_eq_nil_iff.mpr fun r hr htenant => hu ?_
  exact (of_decide_eq_true htenant).symm.trans (h r hr)

/-- What is written to rows of one tenant leaves the rows of the others. -/
theorem ownRows_map_foreign {g : ρ → ρ} (hg : ∀ r, tenantOf (g r) = tenantOf r)
    (hsame : ∀ r ∈ rows, tenantOf r ≠ t → g r = r) (hu : u ≠ t) :
    ownRows u (rows.map g) = ownRows u rows := by
  rw [ownRows_map hg]
  refine (List.map_congr_left fun r hr => ?_).trans (List.map_id _)
  obtain ⟨hmem, htenant⟩ := mem_ownRows.mp hr
  exact hsame r hmem fun h => hu (htenant.symm.trans h)

/-- Another tenant's rows are all kept by a filter that drops none of them. -/
theorem ownRows_filter_foreign {q : ρ → Bool} (hsame : ∀ r ∈ rows, tenantOf r ≠ t → q r = true)
    (hu : u ≠ t) : ownRows u (rows.filter q) = ownRows u rows := by
  rw [ownRows_filter]
  refine List.filter_eq_self.mpr fun r hr => ?_
  obtain ⟨hmem, htenant⟩ := mem_ownRows.mp hr
  exact hsame r hmem fun h => hu (htenant.symm.trans h)

/-- `UPDATE … WHERE p`, under the tenant's policy. -/
def updateWhere (t : ι) (p : ρ → Bool) (g : ρ → ρ) (rows : List ρ) : List ρ :=
  rows.map fun r => if tenantOf r = t ∧ p r = true then g r else r

/-- `DELETE … WHERE p`, under the tenant's policy. -/
def deleteWhere (t : ι) (p : ρ → Bool) (rows : List ρ) : List ρ :=
  rows.filter fun r => decide (¬ (tenantOf r = t ∧ p r = true))

/-- An update leaves every row with its tenant. -/
theorem tenant_update {p : ρ → Bool} {g : ρ → ρ} (hg : ∀ r, tenantOf (g r) = tenantOf r) (r : ρ) :
    tenantOf (if tenantOf r = t ∧ p r = true then g r else r) = tenantOf r := by
  split
  · exact hg r
  · rfl

/-- An UPDATE under the tenant's policy, seen by the tenant. -/
theorem ownRows_updateWhere {p : ρ → Bool} {g : ρ → ρ} (hg : ∀ r, tenantOf (g r) = tenantOf r) :
    ownRows t (updateWhere t p g rows) = updateWhere t p g (ownRows t rows) :=
  ownRows_map (tenant_update hg)

/-- The same, seen by another: nothing has happened. -/
theorem ownRows_updateWhere_foreign {p : ρ → Bool} {g : ρ → ρ}
    (hg : ∀ r, tenantOf (g r) = tenantOf r) (hu : u ≠ t) :
    ownRows u (updateWhere t p g rows) = ownRows u rows :=
  ownRows_map_foreign (tenant_update hg) (fun _ _ hne => if_neg fun h => hne h.1) hu

/-- An UPDATE keeps the keys of the rows. -/
theorem keys_updateWhere {p : ρ → Bool} {g : ρ → ρ} (hg : ∀ r, keyOf (g r) = keyOf r) :
    (updateWhere t p g rows).map keyOf = rows.map keyOf := by
  unfold updateWhere
  rw [List.map_map]
  refine List.map_congr_left fun r _ => ?_
  show keyOf (if _ then g r else r) = keyOf r
  split
  · exact hg r
  · rfl

/-- A DELETE under the tenant's policy, seen by the tenant. -/
theorem ownRows_deleteWhere {p : ρ → Bool} :
    ownRows t (deleteWhere t p rows) = deleteWhere t p (ownRows t rows) := ownRows_filter

theorem ownRows_deleteWhere_foreign {p : ρ → Bool} (hu : u ≠ t) :
    ownRows u (deleteWhere t p rows) = ownRows u rows :=
  ownRows_filter_foreign (fun _ _ hne => decide_eq_true fun h => hne h.1) hu

end

/-! ## §2. References. -/

section

variable {ι κ ρ τ : Type} [TenantRow ρ ι κ] [TenantRow τ ι κ]

/-- Every link of the rows is to a row of the same tenant. -/
def Refers (source : List ρ) (link : ρ → Option κ) (target : List τ) : Prop :=
  ∀ r ∈ source, ∀ k, link r = some k → ∃ x ∈ target, keyOf x = k ∧ tenantOf x = tenantOf r

variable {source source' : List ρ} {link : ρ → Option κ} {target target' : List τ}

/-- References stay inside the tenant under an update that keeps them, or points to its
own rows. -/
theorem Refers.map (h : Refers source link target) {g : ρ → ρ}
    (hg : ∀ r, tenantOf (g r) = tenantOf r)
    (hlink : ∀ r ∈ source, ∀ k, link (g r) = some k →
      link r = some k ∨ ∃ x ∈ target, keyOf x = k ∧ tenantOf x = tenantOf r) :
    Refers (source.map g) link target := by
  intro r' hr' k hk
  obtain ⟨r, hr, rfl⟩ := List.mem_map.mp hr'
  rw [hg r]
  rcases hlink r hr k hk with hold | hnew
  · exact h r hr k hold
  · exact hnew

/-- Under an insert of rows that refer so. -/
theorem Refers.append (h : Refers source link target) {more : List ρ}
    (hmore : Refers more link target) : Refers (source ++ more) link target := by
  intro r hr k hk
  rcases List.mem_append.mp hr with hold | hnew
  · exact h r hold k hk
  · exact hmore r hnew k hk

/-- Under a DELETE of rows that refer. -/
theorem Refers.filter (h : Refers source link target) (q : ρ → Bool) :
    Refers (source.filter q) link target :=
  fun r hr => h r (List.mem_of_mem_filter hr)

theorem Refers.onto (h : Refers source link target)
    (htarget : ∀ x ∈ target, ∃ x' ∈ target', keyOf x' = keyOf x ∧ tenantOf x' = tenantOf x) :
    Refers source link target' := by
  intro r hr k hk
  obtain ⟨x, hx, hkey, htenant⟩ := h r hr k hk
  obtain ⟨x', hx', hkey', htenant'⟩ := htarget x hx
  exact ⟨x', hx', hkey'.trans hkey, htenant'.trans htenant⟩

/-- An update of the rows referred to keeps both. -/
theorem Refers.onto_map (h : Refers source link target) {g : τ → τ}
    (hkey : ∀ x, keyOf (g x) = keyOf x) (htenant : ∀ x, tenantOf (g x) = tenantOf x) :
    Refers source link (target.map g) :=
  h.onto fun x hx => ⟨g x, List.mem_map_of_mem hx, hkey x, htenant x⟩

theorem Refers.onto_append (h : Refers source link target) (more : List τ) :
    Refers source link (target ++ more) :=
  h.onto fun x hx => ⟨x, List.mem_append_left more hx, rfl, rfl⟩

/-- An UPDATE of the tenant's rows that refer. -/
theorem Refers.update [DecidableEq ι] (h : Refers source link target) {t : ι} {p : ρ → Bool}
    {g : ρ → ρ} (hg : ∀ r, tenantOf (g r) = tenantOf r)
    (hlink : ∀ r ∈ source, tenantOf r = t → ∀ k, link (g r) = some k →
      link r = some k ∨ ∃ x ∈ target, keyOf x = k ∧ tenantOf x = t) :
    Refers (updateWhere t p g source) link target := by
  refine h.map (tenant_update hg) ?_
  intro r hr k hk
  split at hk
  next hcond =>
    rcases hlink r hr hcond.1 k hk with hold | ⟨x, hx, hkey, htenant⟩
    · exact .inl hold
    · exact .inr ⟨x, hx, hkey, htenant.trans hcond.1.symm⟩
  next => exact .inl hk

/-- An UPDATE of the rows they refer to. -/
theorem Refers.onto_update [DecidableEq ι] (h : Refers source link target) {t : ι} {p : τ → Bool}
    {g : τ → τ} (hkey : ∀ x, keyOf (g x) = keyOf x) (htenant : ∀ x, tenantOf (g x) = tenantOf x) :
    Refers source link (updateWhere t p g target) := by
  refine h.onto_map ?_ (tenant_update htenant)
  intro x
  split
  · exact hkey x
  · rfl

/-- A row goes, and the links to it with it. -/
theorem Refers.without [DecidableEq ι] [DecidableEq κ] {t : ι} (h : Refers source link target) {k : κ}
    (hsource : ∀ r' ∈ source', link r' ≠ some k ∧ (link r' = none
      ∨ ∃ r ∈ source, tenantOf r = tenantOf r' ∧ link r = link r')) :
    Refers source' link (deleteWhere t (fun x => decide (keyOf x = k)) target) := by
  intro r' hr' k' hk'
  obtain ⟨hne, hnone | ⟨r, hr, htenant, hlink⟩⟩ := hsource r' hr'
  · rw [hnone] at hk'
    cases hk'
  · obtain ⟨x, hx, hkey, hx'⟩ := h r hr k' (hlink.trans hk')
    refine ⟨x, List.mem_filter.mpr ⟨hx, decide_eq_true ?_⟩, hkey, hx'.trans htenant⟩
    rintro ⟨-, hkk⟩
    rw [hk'] at hne
    exact hne (congrArg some (hkey.symm.trans (of_decide_eq_true hkk)))

/-- Who links to a row of a tenant is a row of that tenant. -/
theorem Refers.tenant_of (h : Refers source link target) (hkeys : (target.map keyOf).Nodup)
    {x : τ} (hx : x ∈ target) {r : ρ} (hr : r ∈ source) (hlink : link r = some (keyOf x)) :
    tenantOf r = tenantOf x := by
  obtain ⟨x', hx', hkey, htenant⟩ := h r hr (keyOf x) hlink
  rw [← htenant, List.inj_on_of_nodup_map hkeys hx' hx hkey]

end

/-! ## §3. A divided store. -/

/-- What a tenant has of the store, and what keeps the parts apart. -/
structure Division (ι σ : Type) where
  view : ι → σ → σ
  inv : σ → Prop

variable {ι σ ρ ε α β : Type}

/-- A transaction: what it returns and the store it leaves, or an error and no trace. -/
abbrev Tx (σ ε α : Type) := StateT σ (Except ε) α

/-- `m`, run for `t` where `P` holds, is confined to the rows of `t`, ends in errors of
the kind `ok` only, and leaves `Q`. -/
structure Confined (D : Division ι σ) (ok : ε → Prop) (t : ι) (P : σ → Prop) (m : Tx σ ε α)
    (Q : α → σ → Prop) : Prop where
  fails : ∀ s e, D.inv s → P s → m s = .error e → ok e ∧ m (D.view t s) = .error e
  works : ∀ s a s', D.inv s → P s → m s = .ok (a, s') →
    D.inv s' ∧ Q a s' ∧ m (D.view t s) = .ok (a, D.view t s')
      ∧ ∀ u, u ≠ t → D.view u s' = D.view u s

/-- Reads. -/
def readOf (f : σ → α) : Tx σ ε α := fun s => .ok (f s, s)

/-- Writes. -/
def writeOf (f : σ → σ) : Tx σ ε Unit := fun s => .ok ((), f s)

/-- Refuses with `e` unless `c`. -/
def ensure (c : Prop) [Decidable c] (e : ε) : Tx σ ε Unit :=
  fun s => if c then .ok ((), s) else .error e

/-- The row of a lookup. -/
def expect (o : Option α) (e : ε) : Tx σ ε α :=
  fun s => match o with
    | some a => .ok (a, s)
    | none => .error e

/-- Answers the errors of `m` with others. -/
def rescue (f : ε → ε) (m : Tx σ ε α) : Tx σ ε α := fun s => (m s).mapError f

/-- A transaction goes on from where its first part has left the store. -/
theorem tx_bind {m : Tx σ ε α} {k : α → Tx σ ε β} {s s' : σ} {a : α} (h : m s = .ok (a, s')) :
    (m >>= k) s = k a s' := by
  show (m s >>= fun p => k p.1 p.2) = _
  rw [h]
  rfl

/-- A transaction that goes through has gone through at each of its statements. -/
theorem tx_bind_ok {m : Tx σ ε α} {k : α → Tx σ ε β} {s : σ} {r : β × σ} :
    (m >>= k) s = .ok r ↔ ∃ a s', m s = .ok (a, s') ∧ k a s' = .ok r := by
  constructor
  · intro h
    replace h : (m s >>= fun p => k p.1 p.2) = .ok r := h
    cases hm : m s with
    | error e =>
        rw [hm] at h
        cases h
    | ok p =>
        rw [hm] at h
        exact ⟨p.1, p.2, rfl, h⟩
  · rintro ⟨a, s', hm, hk⟩
    rw [tx_bind hm, hk]

theorem ensure_ok {c : Prop} [Decidable c] {e : ε} {s : σ} {r : Unit × σ} :
    ensure c e s = .ok r ↔ c ∧ r = ((), s) := by
  unfold ensure
  split
  next hc =>
    constructor
    · intro h
      cases h
      exact ⟨hc, rfl⟩
    · rintro ⟨-, rfl⟩
      rfl
  next hc => exact ⟨nofun, fun h => absurd h.1 hc⟩

section

variable {D : Division ι σ} {ok : ε → Prop} {t : ι} {P P' : σ → Prop} {Q Q' : α → σ → Prop}
variable {R : β → σ → Prop}

/-! ## §4. The rules. -/

/-- A transaction that has ended is confined. -/
theorem confined_pure {a : α} (hQ : ∀ s, D.inv s → P s → Q a s) :
    Confined (ε := ε) D ok t P (pure a) Q where
  fails s e hs hP h := by cases h
  works s a' s' hs hP h := by
    cases h
    exact ⟨hs, hQ s hs hP, rfl, fun u hu => rfl⟩

/-- **The rule of sequence**: each statement may rely on what the ones before it found. -/
theorem confined_bind {m : Tx σ ε α} {k : α → Tx σ ε β} (hm : Confined D ok t P m Q)
    (hk : ∀ a, Confined D ok t (Q a) (k a) R) : Confined D ok t P (m >>= k) R where
  fails s e hs hP h := by
    show ok e ∧ (m (D.view t s) >>= fun p => k p.1 p.2) = .error e
    replace h : (m s >>= fun p => k p.1 p.2) = .error e := h
    cases hms : m s with
    | error e' =>
        rw [hms] at h
        cases h
        obtain ⟨hok, hview⟩ := hm.fails s e hs hP hms
        rw [hview]
        exact ⟨hok, rfl⟩
    | ok p =>
        rw [hms] at h
        -- the first part works, and the second goes on from there in both
        obtain ⟨hs', hQ, hview, -⟩ := hm.works s p.1 p.2 hs hP hms
        rw [hview]
        exact (hk p.1).fails p.2 e hs' hQ h
  works s b s'' hs hP h := by
    show _ ∧ _ ∧ (m (D.view t s) >>= fun p => k p.1 p.2) = _ ∧ _
    replace h : (m s >>= fun p => k p.1 p.2) = .ok (b, s'') := h
    cases hms : m s with
    | error e' =>
        rw [hms] at h
        cases h
    | ok p =>
        rw [hms] at h
        obtain ⟨hs', hQ, hview, hothers⟩ := hm.works s p.1 p.2 hs hP hms
        obtain ⟨hs'', hR, hview', hothers'⟩ := (hk p.1).works p.2 b s'' hs' hQ h
        rw [hview]
        exact ⟨hs'', hR, hview', fun u hu => (hothers' u hu).trans (hothers u hu)⟩

/-- A weaker condition before, a stronger one after. -/
theorem Confined.weaken {m : Tx σ ε α} (h : Confined D ok t P m Q)
    (hP : ∀ s, D.inv s → P' s → P s) (hQ : ∀ a s, D.inv s → Q a s → Q' a s) :
    Confined D ok t P' m Q' where
  fails s e hs hPs := h.fails s e hs (hP s hs hPs)
  works s a s' hs hPs hms := by
    obtain ⟨hs', hQs, hview, hothers⟩ := h.works s a s' hs (hP s hs hPs) hms
    exact ⟨hs', hQ a s' hs' hQs, hview, hothers⟩

/-- What is read is the tenant's own, or the same for the tenant's part. -/
theorem confined_read {f : σ → α} (hf : ∀ s, D.inv s → P s → f (D.view t s) = f s) :
    Confined (ε := ε) D ok t P (readOf f) fun a s => a = f s ∧ P s where
  fails s e hs hP h := by cases h
  works s a s' hs hP h := by
    cases h
    refine ⟨hs, ⟨rfl, hP⟩, ?_, fun u hu => rfl⟩
    show Except.ok (f (D.view t s), D.view t s) = _
    rw [hf s hs hP]

/-- A write is confined that keeps the invariant, is the same write on the tenant's own
rows, and is nothing to anybody else. -/
theorem confined_write {f : σ → σ} {Q : Unit → σ → Prop} (hinv : ∀ s, D.inv s → P s → D.inv (f s))
    (hown : ∀ s, D.inv s → P s → f (D.view t s) = D.view t (f s))
    (hothers : ∀ s, D.inv s → P s → ∀ u, u ≠ t → D.view u (f s) = D.view u s)
    (hQ : ∀ s, D.inv s → P s → Q () (f s)) : Confined (ε := ε) D ok t P (writeOf f) Q where
  fails s e hs hP h := by cases h
  works s a s' hs hP h := by
    cases h
    refine ⟨hinv s hs hP, hQ s hs hP, ?_, hothers s hs hP⟩
    show Except.ok ((), f (D.view t s)) = _
    rw [hown s hs hP]

/-- A check on what was read; its refusal is an answer the tenant may get. -/
theorem confined_ensure {c : Prop} [Decidable c] {e : ε} (he : ok e) :
    Confined D ok t P (ensure c e) fun _ s => c ∧ P s where
  fails s e' hs hP h := by
    unfold ensure at h ⊢
    split at h
    next => cases h
    next hc =>
      cases h
      exact ⟨he, if_neg hc⟩
  works s a s' hs hP h := by
    unfold ensure at h ⊢
    split at h
    next hc =>
      cases h
      exact ⟨hs, ⟨hc, hP⟩, if_pos hc, fun u hu => rfl⟩
    next => cases h

/-- The same for a row that has to be there. -/
theorem confined_expect {o : Option α} {e : ε} (he : ok e) :
    Confined D ok t P (expect o e) fun a s => o = some a ∧ P s := by
  cases o with
  | none =>
      refine ⟨fun s e' hs hP h => ?_, fun s a s' hs hP h => ?_⟩
      · cases h
        exact ⟨he, rfl⟩
      · cases h
  | some a =>
      refine ⟨fun s e' hs hP h => ?_, fun s a' s' hs hP h => ?_⟩
      · cases h
      · cases h
        exact ⟨hs, ⟨rfl, hP⟩, rfl, fun u hu => rfl⟩

/-- What is known to be there is found. -/
theorem confined_found {o : Option α} {e : ε} (ho : ∀ s, D.inv s → P s → o ≠ none) :
    Confined D ok t P (expect o e) fun a s => o = some a ∧ P s := by
  cases o with
  | none => exact ⟨fun s e' hs hP _ => absurd rfl (ho s hs hP), fun s a s' hs hP _ =>
      absurd rfl (ho s hs hP)⟩
  | some a =>
      refine ⟨fun s e' hs hP h => ?_, fun s a' s' hs hP h => ?_⟩
      · cases h
      · cases h
        exact ⟨hs, ⟨rfl, hP⟩, rfl, fun u hu => rfl⟩

/-- An error that is answered in other words. -/
theorem confined_rescue {r : ε → Prop} {f : ε → ε} {m : Tx σ ε α}
    (h : Confined D r t P m Q) (hf : ∀ e, r e → ok (f e)) :
    Confined D ok t P (rescue f m) Q where
  fails s e hs hP hms := by
    unfold rescue at hms ⊢
    cases hm : m s with
    | ok p =>
        rw [hm] at hms
        cases hms
    | error e' =>
        rw [hm] at hms
        cases hms
        -- the error is renamed the same way in both
        obtain ⟨hok, hview⟩ := h.fails s e' hs hP hm
        rw [hview]
        exact ⟨hf e' hok, rfl⟩
  works s a s' hs hP hms := by
    unfold rescue at hms ⊢
    cases hm : m s with
    | error e' =>
        rw [hm] at hms
        cases hms
    | ok p =>
        rw [hm] at hms
        cases hms
        obtain ⟨hs', hQ, hview, hothers⟩ := h.works s a s' hs hP hm
        rw [hview]
        exact ⟨hs', hQ, rfl, hothers⟩

/-- A loop keeps what each round keeps. -/
theorem confined_mapM {γ : Type} {f : γ → Tx σ ε β} :
    ∀ l : List γ, (∀ c ∈ l, Confined D ok t P (f c) fun _ => P) →
      Confined D ok t P (l.mapM f) fun _ => P
  | [], _ => by
      rw [List.mapM_nil]
      exact confined_pure fun _ _ hP => hP
  | c :: l, h => by
      rw [List.mapM_cons]
      refine confined_bind (h c List.mem_cons_self) fun b => ?_
      refine confined_bind (confined_mapM l fun c' hc' => h c' (List.mem_cons_of_mem c hc')) ?_
      exact fun bs => confined_pure fun _ _ hP => hP

end

/-! ## §5. Tables of the store. -/

/-- A table of the store: how its rows are read, and how they are put back. -/
structure Table (σ ρ : Type) where
  rows : σ → List ρ
  put : σ → List ρ → σ

namespace Table

variable {κ : Type} [DecidableEq ι] [TenantRow ρ ι κ] (T : Table σ ρ) (t : ι)

/-- A query under the tenant's policy. -/
def read (f : List ρ → α) : Tx σ ε α := readOf fun s => f (ownRows t (T.rows s))

/-- INSERT. -/
def insert (more : List ρ) : Tx σ ε Unit := writeOf fun s => T.put s (T.rows s ++ more)

/-- UPDATE, under the tenant's policy. -/
def update (p : ρ → Bool) (g : ρ → ρ) : Tx σ ε Unit :=
  writeOf fun s => T.put s (updateWhere t p g (T.rows s))

/-- DELETE, under the tenant's policy. -/
def delete (p : ρ → Bool) : Tx σ ε Unit := writeOf fun s => T.put s (deleteWhere t p (T.rows s))

/-- The row a tenant has of that key. -/
def Has (k : κ) (s : σ) : Prop := ∃ r ∈ T.rows s, keyOf r = k ∧ tenantOf r = t

/-- The index of a UNIQUE constraint: it sees the rows of every tenant. -/
def unique (p : ρ → Bool) (e : ε) : Tx σ ε Unit :=
  fun s => if ∃ r ∈ T.rows s, p r = true then .error e else .ok ((), s)

/-- The trigger of a foreign key: it sees the rows of every tenant. -/
def references [DecidableEq κ] (k : Option κ) (e : ε) : Tx σ ε Unit :=
  fun s => if ∀ k' ∈ k, ∃ r ∈ T.rows s, keyOf r = k' then .ok ((), s) else .error e

/-- The table is divided as the store is. -/
structure Splits (D : Division ι σ) : Prop where
  rows_view : ∀ u s, T.rows (D.view u s) = ownRows u (T.rows s)
  view_put : ∀ u s rows, D.view u (T.put s rows) = T.put (D.view u s) (ownRows u rows)
  put_rows : ∀ s, T.put s (T.rows s) = s

variable {T t} {D : Division ι σ} {ok : ε → Prop} {P : σ → Prop}

/-- A key is there for the tenant exactly if it is in the tenant's view. -/
theorem has_view (hT : T.Splits D) {k : κ} {s : σ} : T.Has t k (D.view t s) ↔ T.Has t k s := by
  unfold Has
  rw [hT.rows_view]
  constructor
  · rintro ⟨r, hr, hkey, htenant⟩
    exact ⟨r, (mem_ownRows.mp hr).1, hkey, htenant⟩
  · rintro ⟨r, hr, hkey, htenant⟩
    exact ⟨r, mem_ownRows.mpr ⟨hr, htenant⟩, hkey, htenant⟩

/-- A query of the tenant's rows. -/
theorem confined_table (hT : T.Splits D) {f : List ρ → α} :
    Confined (ε := ε) D ok t P (T.read t f) fun a s => a = f (ownRows t (T.rows s)) ∧ P s := by
  refine confined_read fun s _ _ => ?_
  rw [hT.rows_view, ownRows_ownRows]

/-- A table put back with rows of which another tenant has none. -/
theorem Splits.foreign (hT : T.Splits D) {u : ι} {s : σ} {rows : List ρ}
    (h : ownRows u rows = ownRows u (T.rows s)) : D.view u (T.put s rows) = D.view u s := by
  rw [hT.view_put, h, ← hT.rows_view, hT.put_rows]

/-- An INSERT of the tenant's rows. -/
theorem confined_insert (hT : T.Splits D) {more : List ρ} (hmore : ∀ r ∈ more, tenantOf r = t)
    (hinv : ∀ s, D.inv s → P s → D.inv (T.put s (T.rows s ++ more))) {Q : σ → Prop}
    (hQ : ∀ s, D.inv s → P s → Q (T.put s (T.rows s ++ more))) :
    Confined (ε := ε) D ok t P (T.insert more) fun _ => Q := by
  refine confined_write hinv ?_ ?_ hQ
  · intro s _ _
    rw [hT.view_put, ownRows_append, ownRows_own hmore, hT.rows_view]
  · intro s _ _ u hu
    refine hT.foreign ?_
    rw [ownRows_append, ownRows_foreign hmore hu, List.append_nil]

/-- An UPDATE of the tenant's rows. -/
theorem confined_update (hT : T.Splits D) {p : ρ → Bool} {g : ρ → ρ}
    (hg : ∀ r, tenantOf (g r) = tenantOf r)
    (hinv : ∀ s, D.inv s → P s → D.inv (T.put s (updateWhere t p g (T.rows s)))) {Q : σ → Prop}
    (hQ : ∀ s, D.inv s → P s → Q (T.put s (updateWhere t p g (T.rows s)))) :
    Confined (ε := ε) D ok t P (T.update t p g) fun _ => Q := by
  refine confined_write hinv ?_ ?_ hQ
  · intro s _ _
    rw [hT.view_put, ownRows_updateWhere hg, hT.rows_view]
  · exact fun s _ _ u hu => hT.foreign (ownRows_updateWhere_foreign hg hu)

theorem confined_delete (hT : T.Splits D) {p : ρ → Bool}
    (hinv : ∀ s, D.inv s → P s → D.inv (T.put s (deleteWhere t p (T.rows s)))) {Q : σ → Prop}
    (hQ : ∀ s, D.inv s → P s → Q (T.put s (deleteWhere t p (T.rows s)))) :
    Confined (ε := ε) D ok t P (T.delete t p) fun _ => Q := by
  refine confined_write hinv ?_ ?_ hQ
  · intro s _ _
    rw [hT.view_put, ownRows_deleteWhere, hT.rows_view]
  · exact fun s _ _ u hu => hT.foreign (ownRows_deleteWhere_foreign hu)

/-- A unique index shows nothing of the others when it is the tenant's own. -/
theorem confined_unique (hT : T.Splits D) {p : ρ → Bool} {e : ε} (he : ok e)
    (hp : ∀ r : ρ, p r = true → tenantOf r = t) :
    Confined D ok t P (T.unique p e) fun _ => P := by
  -- a row that clashes is the tenant's own, so it is seen in the view
  have hsame : ∀ s, (∃ r ∈ T.rows (D.view t s), p r = true) ↔ ∃ r ∈ T.rows s, p r = true := by
    intro s
    rw [hT.rows_view]
    constructor
    · rintro ⟨r, hr, hpr⟩
      exact ⟨r, (mem_ownRows.mp hr).1, hpr⟩
    · rintro ⟨r, hr, hpr⟩
      exact ⟨r, mem_ownRows.mpr ⟨hr, hp r hpr⟩, hpr⟩
  refine ⟨fun s e' hs hP h => ?_, fun s a s' hs hP h => ?_⟩
  · unfold unique at h ⊢
    split at h
    next hex =>
      cases h
      exact ⟨he, if_pos ((hsame s).mpr hex)⟩
    next => cases h
  · unfold unique at h ⊢
    split at h
    next => cases h
    next hnone =>
      cases h
      exact ⟨hs, hP, if_neg fun hex => hnone ((hsame s).mp hex), fun u hu => rfl⟩

/-- A key that nobody has used. -/
theorem confined_unused (hT : T.Splits D) {p : ρ → Bool} {e : ε}
    (hp : ∀ s, D.inv s → P s → ∀ r ∈ T.rows s, p r = false) :
    Confined D ok t P (T.unique p e) fun _ => P := by
  have hnone : ∀ s, D.inv s → P s → ¬ ∃ r ∈ T.rows s, p r = true := by
    rintro s hs hP ⟨r, hr, hpr⟩
    rw [hp s hs hP r hr] at hpr
    cases hpr
  -- no row clashes in the whole table, hence none in the view
  have hview : ∀ s, D.inv s → P s → ¬ ∃ r ∈ T.rows (D.view t s), p r = true := by
    rintro s hs hP ⟨r, hr, hpr⟩
    rw [hT.rows_view] at hr
    exact hnone s hs hP ⟨r, (mem_ownRows.mp hr).1, hpr⟩
  refine ⟨fun s e' hs hP h => ?_, fun s a s' hs hP h => ?_⟩
  · unfold unique at h
    rw [if_neg (hnone s hs hP)] at h
    cases h
  · unfold unique at h ⊢
    rw [if_neg (hnone s hs hP)] at h
    cases h
    exact ⟨hs, hP, if_neg (hview s hs hP), fun u hu => rfl⟩

/-- A foreign key to a row of the tenant. -/
theorem confined_references [DecidableEq κ] (hT : T.Splits D) {k : Option κ} {e : ε}
    (hk : ∀ s, D.inv s → P s → ∀ k' ∈ k, T.Has t k' s) :
    Confined D ok t P (T.references k e) fun _ => P := by
  have hall : ∀ s, D.inv s → P s → ∀ k' ∈ k, ∃ r ∈ T.rows s, keyOf r = k' := by
    intro s hs hP k' hk'
    obtain ⟨r, hr, hkey, -⟩ := hk s hs hP k' hk'
    exact ⟨r, hr, hkey⟩
  -- the row referred to is the tenant's own
  have hview : ∀ s, D.inv s → P s → ∀ k' ∈ k, ∃ r ∈ T.rows (D.view t s), keyOf r = k' := by
    intro s hs hP k' hk'
    obtain ⟨r, hr, hkey, -⟩ := (has_view hT).mpr (hk s hs hP k' hk')
    exact ⟨r, hr, hkey⟩
  refine ⟨fun s e' hs hP h => ?_, fun s a s' hs hP h => ?_⟩
  · unfold references at h
    rw [if_pos (hall s hs hP)] at h
    cases h
  · unfold references at h ⊢
    rw [if_pos (hall s hs hP)] at h
    cases h
    exact ⟨hs, hP, if_pos (hview s hs hP), fun u hu => rfl⟩

end Table

/-! ## §6. Requests of all tenants. -/

section

variable (handle : ι → ρ → Tx σ ε α)

/-- One request: what it commits, and its answer. -/
def serveCall (t : ι) (r : ρ) (s : σ) : σ × Except ε α :=
  match handle t r s with
  | .ok (a, s') => (s', .ok a)
  | .error e => (s, .error e)

/-- The store after any requests of any tenants. -/
def afterCalls : List (ι × ρ) → σ → σ
  | [], s => s
  | (t, r) :: calls, s => afterCalls calls (serveCall handle t r s).1

/-- Each request meets a condition when its turn comes. -/
def Meets (C : ι → ρ → σ → Prop) : List (ι × ρ) → σ → Prop
  | [], _ => True
  | (t, r) :: calls, s => C t r s ∧ Meets C calls (serveCall handle t r s).1

variable {handle} {D : Division ι σ} {ok : ε → Prop} {C : ι → ρ → σ → Prop}

/-- **A confined call**: the store afterwards is one of the invariant, the answer is
that of the tenant's view alone, and nobody else's view has changed. -/
theorem serveCall_confined {t : ι} {r : ρ} {s : σ} {Q : α → σ → Prop}
    (h : Confined D ok t (C t r) (handle t r) Q) (hs : D.inv s) (hC : C t r s) :
    D.inv (serveCall handle t r s).1
      ∧ serveCall handle t r (D.view t s) = (D.view t (serveCall handle t r s).1, (serveCall handle t r s).2)
      ∧ (∀ e, (serveCall handle t r s).2 = .error e → ok e)
      ∧ ∀ u, u ≠ t → D.view u (serveCall handle t r s).1 = D.view u s := by
  unfold serveCall
  cases hr : handle t r s with
  | error e =>
      -- rolled back: nothing has moved
      obtain ⟨hok, hview⟩ := h.fails s e hs hC hr
      rw [hview]
      refine ⟨hs, rfl, ?_, fun u hu => rfl⟩
      rintro e' ⟨⟩
      exact hok
  | ok p =>
      obtain ⟨hs', -, hview, hothers⟩ := h.works s p.1 p.2 hs hC hr
      rw [hview]
      exact ⟨hs', rfl, nofun, hothers⟩

variable [DecidableEq ι]

variable (handle) in
/-- The answers a tenant gets to its requests among these. -/
def answers (t : ι) : List (ι × ρ) → σ → List (Except ε α)
  | [], _ => []
  | (u, r) :: calls, s =>
      let rest := answers t calls (serveCall handle u r s).1
      if u = t then (serveCall handle u r s).2 :: rest else rest

/-- The calls of one tenant. -/
def callsOf (t : ι) (calls : List (ι × ρ)) : List (ι × ρ) :=
  calls.filter fun c => decide (c.1 = t)

variable {Q : ι → ρ → α → σ → Prop}

/-- **Each tenant is alone**: whatever the others ask, in whatever order, its rows become
what its own requests make of them, and its answers are the answers to those. -/
theorem answers_alone (h : ∀ t r, Confined D ok t (C t r) (handle t r) (Q t r)) (t : ι) :
    ∀ (calls : List (ι × ρ)) (s : σ), D.inv s → Meets handle C calls s →
      D.inv (afterCalls handle calls s)
        ∧ D.view t (afterCalls handle calls s) = afterCalls handle (callsOf t calls) (D.view t s)
        ∧ answers handle t calls s = answers handle t (callsOf t calls) (D.view t s)
        ∧ ∀ e, .error e ∈ answers handle t calls s → ok e
  | [], s, hs, _ => ⟨hs, rfl, rfl, nofun⟩
  | (u, r) :: calls, s, hs, hC => by
      obtain ⟨hcall, hrest⟩ := hC
      obtain ⟨hs', hown, hok, hothers⟩ := serveCall_confined (h u r) hs hcall
      obtain ⟨hinv, hview, hanswers, herrors⟩ := answers_alone h t calls _ hs' hrest
      refine ⟨hinv, ?_⟩
      by_cases hu : u = t
      · subst hu
        have hcalls : callsOf u ((u, r) :: calls) = (u, r) :: callsOf u calls :=
          List.filter_cons_of_pos (decide_eq_true rfl)
        rw [hcalls]
        simp only [afterCalls, answers, if_true, hown]
        refine ⟨hview, congrArg _ hanswers, ?_⟩
        intro e he
        rcases List.mem_cons.mp he with heq | hin
        · exact hok e heq.symm
        · exact herrors e hin
      · have hcalls : callsOf t ((u, r) :: calls) = callsOf t calls :=
          List.filter_cons_of_neg (by simpa using hu)
        rw [hcalls]
        simp only [afterCalls, answers, if_neg hu]
        -- somebody else's request: nothing of the tenant's has changed
        rw [hothers t (Ne.symm hu)] at hview hanswers
        exact ⟨hview, hanswers, herrors⟩

end

end OraOS.Lib
