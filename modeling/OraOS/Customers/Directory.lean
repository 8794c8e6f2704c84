/-
  OraOS.Customers.Directory — `CustomersService`: the customers, known by their phone.

  One function brings a number to its canonical form, on every write and on every lookup,
  and the phone is unique: that makes it an identity.

    * `normalizePhone_spells` — every spelling of a number has one form;
    * `directory_inv`         — forms are canonical, and nobody shares one;
    * `phone_is_identity`     — **a customer is found under every spelling**, in every
                                later state, and nobody else can be given the number.
-/
import OraOS.Api.Base
import OraOS.Lib.Outcome
import OraOS.Lib.Transition
import OraOS.Lib.Tally

namespace OraOS.Customers

open OraOS.Api
open OraOS.Lib

/-! ## §1. Phone numbers. -/

/-- `.replace(/\D/g, '')`. -/
def digitsOf (input : String) : List Char := input.toList.filter Char.isDigit

/-- Without the country code 91, or the trunk prefix 0, in front of ten digits. -/
def national (digits : List Char) : List Char :=
  if digits.length = 12 ∧ digits.take 2 = ['9', '1'] then digits.drop 2
  else if digits.length = 11 ∧ digits.take 1 = ['0'] then digits.drop 1
  else digits

/-- The one form a typed number is stored and looked up in. -/
def normalizePhone (input : String) : String := String.ofList (national (digitsOf input))

/-- `^[0-9]{7,15}$`: `@Matches`, and the CHECK `customers_phone_digits`. -/
def isPhone (phone : String) : Bool :=
  decide (7 ≤ phone.length ∧ phone.length ≤ 15) && phone.toList.all Char.isDigit

/-- The input writes the number of ten digits, plainly or with a prefix. -/
def Spells (input : String) (number : List Char) : Prop :=
  digitsOf input = number ∨ digitsOf input = '9' :: '1' :: number
    ∨ digitsOf input = '0' :: number

/-- What a phone is kept as is left alone. -/
def Canonical (phone : String) : Prop := national phone.toList = phone.toList

/-- Dropping the prefix leaves digits. -/
theorem national_digits {digits : List Char} (h : ∀ ch ∈ digits, ch.isDigit = true) :
    ∀ ch ∈ national digits, ch.isDigit = true := by
  unfold national
  split
  · exact fun ch hch => h ch (List.mem_of_mem_drop hch)
  · split
    · exact fun ch hch => h ch (List.mem_of_mem_drop hch)
    · exact h

/-- A prefix is dropped once: ten digits are left, which no rule is about. -/
theorem national_idem (digits : List Char) : national (national digits) = national digits := by
  -- both prefixes leave ten digits, and ten digits are left alone
  have hten : ∀ l : List Char, l.length = 10 → national l = l := by
    intro l hl
    unfold national
    rw [if_neg (by omega), if_neg (by omega)]
  by_cases hcode : digits.length = 12 ∧ digits.take 2 = ['9', '1']
  · have heq : national digits = digits.drop 2 := if_pos hcode
    rw [heq]
    refine hten _ ?_
    rw [List.length_drop]
    omega
  · by_cases htrunk : digits.length = 11 ∧ digits.take 1 = ['0']
    · have heq : national digits = digits.drop 1 := by
        unfold national
        rw [if_neg hcode, if_pos htrunk]
      rw [heq]
      refine hten _ ?_
      rw [List.length_drop]
      omega
    · have heq : national digits = digits := by
        unfold national
        rw [if_neg hcode, if_neg htrunk]
      rw [heq, heq]

/-- The characters of a normalised number. -/
theorem normalizePhone_toList (input : String) :
    (normalizePhone input).toList = national (digitsOf input) := by
  unfold normalizePhone
  exact String.toList_ofList

/-- **What is stored is canonical.** -/
theorem normalizePhone_canonical (input : String) : Canonical (normalizePhone input) := by
  unfold Canonical
  rw [normalizePhone_toList, national_idem]

/-- **Every spelling of a number has one form.** -/
theorem normalizePhone_spells {input : String} {number : List Char} (hlen : number.length = 10)
    (h : Spells input number) : normalizePhone input = String.ofList number := by
  unfold normalizePhone
  congr 1
  unfold national
  rcases h with h | h | h
  · rw [h, if_neg (by omega), if_neg (by omega)]
  · rw [h, if_pos ⟨by simp [hlen], rfl⟩]
    rfl
  · rw [h, if_neg (by simp [hlen]), if_pos ⟨by simp [hlen], rfl⟩]
    rfl

/-- The normaliser leaves what it has made alone. -/
theorem normalizePhone_idem (input : String) :
    normalizePhone (normalizePhone input) = normalizePhone input := by
  have hdigits : ∀ ch ∈ digitsOf input, ch.isDigit = true := by
    intro ch hch
    exact (List.mem_filter.mp hch).2
  have hkept : digitsOf (normalizePhone input) = national (digitsOf input) := by
    unfold digitsOf
    rw [normalizePhone_toList]
    exact List.filter_eq_self.mpr (national_digits hdigits)
  show String.ofList (national (digitsOf (normalizePhone input))) = _
  rw [hkept, national_idem]
  rfl

example : normalizePhone "+91 98765-43210" = "9876543210" := by decide

/-! ## §2. The customers. -/

/-- A row of `customers`; its phone has passed the check of the request. -/
structure CustomerRow where
  id : Uuid
  name : String
  phone : String
  email : Option String
  birthday : Option Instant
  notes : Option String
  createdAt : Instant
  /-- `customers_phone_digits` -/
  phone_digits : isPhone phone = true

/-- The customers of a restaurant and the events that announced them. -/
structure Directory where
  customers : List CustomerRow
  /-- The `customer.created` events, by the customer they are about. -/
  createdEvents : List Uuid

/-- The phone as it is typed; the other fields have passed their validators. -/
structure CreateCustomerDto where
  name : String
  phone : String
  email : Option String
  birthday : Option Instant
  notes : Option String

/-- The fields that are set; a birthday and notes may be set to nothing. -/
structure UpdateCustomerDto where
  name : Option String
  phone : Option String
  email : Option String
  birthday : Option (Option Instant)
  notes : Option (Option String)

/-- `toDigits`, then `@Matches`. -/
def phoneField (typed : String) : Except ApiError { phone : String // isPhone phone = true } :=
  if h : isPhone (normalizePhone typed) = true then .ok ⟨normalizePhone typed, h⟩
  else .error (.badRequest "must be 7-15 digits")

/-- Saving a customer: the number is normalised before it is checked and looked for. -/
def createCustomer (dir : Directory) (env : Env) (dto : CreateCustomerDto) :
    Except ApiError (CustomerRow × Directory) := do
  let phone ← phoneField dto.phone
  let customer : CustomerRow :=
    { id := env.newId, name := dto.name, phone := phone.1, email := dto.email,
      birthday := dto.birthday, notes := dto.notes, createdAt := env.now,
      phone_digits := phone.2 }
  require (∀ c ∈ dir.customers, c.id ≠ customer.id ∧ c.phone ≠ customer.phone)
    (.conflict "A customer with that phone number already exists")
  pure (customer, ⟨dir.customers ++ [customer], dir.createdEvents ++ [customer.id]⟩)

/-- The fields of the request over those of the row. -/
def CustomerRow.updated (c : CustomerRow) (dto : UpdateCustomerDto)
    (phone : { phone : String // isPhone phone = true }) : CustomerRow :=
  { c with name := dto.name.getD c.name, phone := phone.1,
           email := dto.email.orElse fun _ => c.email,
           birthday := dto.birthday.getD c.birthday, notes := dto.notes.getD c.notes,
           phone_digits := phone.2 }

/-- The phone a row is left with. -/
def phoneAfter (dto : UpdateCustomerDto) (c : CustomerRow) :
    Except ApiError { phone : String // isPhone phone = true } :=
  match dto.phone with
  | some typed => phoneField typed
  | none => .ok ⟨c.phone, c.phone_digits⟩

/-- Editing a customer; the number stays theirs if nobody else has it. -/
def updateCustomer (dir : Directory) (id : Uuid) (dto : UpdateCustomerDto) :
    Except ApiError Directory := do
  -- the request is validated before the row is looked for
  dto.phone.forM fun typed => do
    let _ ← phoneField typed
    pure ()
  let existing ← found (dir.customers.find? fun c => c.id = id) (.notFound "Customer not found")
  let phone ← phoneAfter dto existing
  require (∀ c ∈ dir.customers, c.id ≠ existing.id → c.phone ≠ phone.1)
    (.conflict "A customer with that phone number already exists")
  pure { dir with customers := dir.customers.map fun c =>
    if c.id = existing.id then existing.updated dto phone else c }

/-- `findByPhone`: what the till looks a customer up with. -/
def findByPhone (dir : Directory) (typed : String) : Option CustomerRow :=
  dir.customers.find? fun c => c.phone = normalizePhone typed

/-- What the customers page asks of the API. -/
inductive CustomerRequest where
  | create (env : Env) (dto : CreateCustomerDto)
  | update (id : Uuid) (dto : UpdateCustomerDto)

/-- The handler behind each request. -/
def performCustomer (dir : Directory) : CustomerRequest → Except ApiError Directory
  | .create env dto => (createCustomer dir env dto).map Prod.snd
  | .update id dto => updateCustomer dir id dto

/-- A new restaurant knows nobody; the requests that succeed, one after the other. -/
def directory : System Directory CustomerRequest where
  init dir := dir.customers = [] ∧ dir.createdEvents = []
  step dir r dir' := performCustomer dir r = .ok dir'

/-! ## §3. What a request does. -/

/-- A number that passed the check is the normalised one. -/
theorem phoneField_ok {typed : String} {phone : { phone : String // isPhone phone = true }}
    (h : phoneField typed = .ok phone) : phone.1 = normalizePhone typed := by
  unfold phoneField at h
  split at h
  next =>
    cases h
    rfl
  next => cases h

/-- **The step inversion**: a customer with a number of their own, or a row rewritten. -/
inductive DirectoryStep (dir : Directory) : CustomerRequest → Directory → Prop where
  | created {env : Env} {dto : CreateCustomerDto} (c : CustomerRow)
      (hphone : c.phone = normalizePhone dto.phone)
      (hnew : ∀ c' ∈ dir.customers, c'.id ≠ c.id ∧ c'.phone ≠ c.phone) :
      DirectoryStep dir (.create env dto) ⟨dir.customers ++ [c], dir.createdEvents ++ [c.id]⟩
  | updated {id : Uuid} {dto : UpdateCustomerDto} {existing c : CustomerRow}
      (hmem : existing ∈ dir.customers) (hid : existing.id = id) (hsame : c.id = existing.id)
      (hphone : (dto.phone = none ∧ c.phone = existing.phone)
        ∨ ∃ typed, dto.phone = some typed ∧ c.phone = normalizePhone typed)
      (hown : ∀ c' ∈ dir.customers, c'.id ≠ existing.id → c'.phone ≠ c.phone) :
      DirectoryStep dir (.update id dto) { dir with customers := dir.customers.map fun c' =>
        if c'.id = existing.id then c else c' }

/-- **A request adds one customer or rewrites one, and nothing else.** -/
theorem performCustomer_step {dir dir' : Directory} {r : CustomerRequest}
    (h : performCustomer dir r = .ok dir') : DirectoryStep dir r dir' := by
  cases r with
  | create env dto =>
      obtain ⟨⟨c, dir''⟩, hok, rfl⟩ := mapped_ok.mp h
      obtain ⟨phone, hphone, hok⟩ := bind_ok.mp hok
      obtain ⟨_, hnew, hok⟩ := bind_ok.mp hok
      cases pure_ok.mp hok
      exact .created _ (phoneField_ok hphone) (require_ok.mp hnew)
  -- four checks before the write: the request, the row, the number, its owner
  | update id dto =>
      obtain ⟨_, -, h⟩ := bind_ok.mp h
      obtain ⟨existing, hfound, h⟩ := bind_ok.mp h
      obtain ⟨phone, hphone, h⟩ := bind_ok.mp h
      obtain ⟨_, hown, h⟩ := bind_ok.mp h
      cases pure_ok.mp h
      have hfind := found_ok.mp hfound
      have hid : existing.id = id := by simpa using List.find?_some hfind
      refine .updated (List.mem_of_find?_eq_some hfind) hid rfl ?_ (require_ok.mp hown)
      unfold phoneAfter at hphone
      split at hphone
      next typed htyped => exact .inr ⟨typed, htyped, phoneField_ok hphone⟩
      next hnone =>
        cases hphone
        exact .inl ⟨hnone, rfl⟩

/-! ## §4. Over a run. -/

/-- Ids and numbers are unique, and every number is in its canonical form. -/
structure DirectoryInv (dir : Directory) : Prop where
  ids : (dir.customers.map (·.id)).Nodup
  phones : (dir.customers.map (·.phone)).Nodup
  canonical : ∀ c ∈ dir.customers, Canonical c.phone
  /-- every customer's creation is on record, once -/
  created : dir.createdEvents = dir.customers.map (·.id)

theorem rewritten_ids {customers : List CustomerRow} {existing c : CustomerRow}
    (h : c.id = existing.id) :
    ((customers.map fun c' => if c'.id = existing.id then c else c').map (·.id))
      = customers.map (·.id) := by
  rw [List.map_map]
  apply List.map_congr_left
  intro c' _
  rw [Function.comp_apply]
  split
  next heq => exact h.trans heq.symm
  next => rfl

/-- A row takes a phone that no other row has. -/
theorem rewritten_phones {customers : List CustomerRow} {existing c : CustomerRow}
    (hids : (customers.map (·.id)).Nodup) (hphones : (customers.map (·.phone)).Nodup)
    (hown : ∀ c' ∈ customers, c'.id ≠ existing.id → c'.phone ≠ c.phone) :
    ((customers.map fun c' => if c'.id = existing.id then c else c').map (·.phone)).Nodup := by
  rw [List.map_map]
  rw [List.Nodup, List.pairwise_map] at hids hphones ⊢
  refine (hids.and hphones).imp_of_mem fun {a b} ha hb hne => ?_
  obtain ⟨hid, hphone⟩ := hne
  rw [Function.comp_apply, Function.comp_apply]
  -- of two rows at most one is the rewritten one
  by_cases ha' : a.id = existing.id
  · have hb' : b.id ≠ existing.id := fun heq => hid (ha'.trans heq.symm)
    rw [if_pos ha', if_neg hb']
    exact (hown b hb hb').symm
  · rw [if_neg ha']
    by_cases hb' : b.id = existing.id
    · rw [if_pos hb']
      exact hown a ha ha'
    · rw [if_neg hb']
      exact hphone

/-- One request keeps the directory in order. -/
theorem DirectoryInv.step {dir dir' : Directory} {r : CustomerRequest} (h : DirectoryInv dir)
    (hstep : DirectoryStep dir r dir') : DirectoryInv dir' := by
  cases hstep with
  | created c hphone hnew =>
      refine ⟨?_, ?_, ?_, ?_⟩
      · exact nodup_keys_append h.ids fun c' hc' => (hnew c' hc').1
      · exact nodup_keys_append h.phones fun c' hc' => (hnew c' hc').2
      · intro c' hc'
        rcases List.mem_append.mp hc' with hc' | hc'
        · exact h.canonical c' hc'
        · rw [List.mem_singleton.mp hc', hphone]
          exact normalizePhone_canonical _
      · show dir.createdEvents ++ [c.id] = (dir.customers ++ [c]).map (·.id)
        rw [h.created, List.map_append, List.map_singleton]
  -- the row is rewritten in place, so its id and its place stay
  | updated hmem hid hsame hphone hown =>
      rename_i existing c
      refine ⟨?_, rewritten_phones h.ids h.phones hown, ?_, ?_⟩
      · rw [rewritten_ids hsame]
        exact h.ids
      · intro c' hc'
        obtain ⟨c₀, hc₀, rfl⟩ := List.mem_map.mp hc'
        split
        · rcases hphone with ⟨-, heq⟩ | ⟨typed, -, heq⟩
          · rw [heq]
            exact h.canonical existing hmem
          · rw [heq]
            exact normalizePhone_canonical _
        · exact h.canonical c₀ hc₀
      · show dir.createdEvents = _
        rw [rewritten_ids hsame]
        exact h.created

/-- **Every directory the API can reach is in order.** -/
theorem directory_inv {dir : Directory} (h : directory.Reachable dir) : DirectoryInv dir := by
  refine h.invariant DirectoryInv ?_ fun dir r dir' hinv hstep =>
    hinv.step (performCustomer_step hstep)
  rintro dir ⟨hcustomers, hevents⟩
  refine ⟨?_, ?_, ?_, ?_⟩
  · rw [hcustomers]
    exact List.nodup_nil
  · rw [hcustomers]
    exact List.nodup_nil
  · rw [hcustomers]
    exact List.forall_mem_nil _
  · rw [hcustomers, hevents]
    rfl

/-- The lookup finds the customer with the number, whoever else there is. -/
theorem findByPhone_of_mem {dir : Directory} (h : DirectoryInv dir) {c : CustomerRow}
    (hc : c ∈ dir.customers) {typed : String} (hphone : c.phone = normalizePhone typed) :
    findByPhone dir typed = some c := by
  unfold findByPhone
  cases hfind : dir.customers.find? fun c => c.phone = normalizePhone typed with
  | none =>
      have hno := List.find?_eq_none.mp hfind c hc
      exact absurd (decide_eq_true hphone) hno
  | some c' =>
      have hc' : c'.phone = normalizePhone typed := by simpa using List.find?_some hfind
      have hmem := List.mem_of_find?_eq_some hfind
      have heq : c' = c := List.inj_on_of_nodup_map h.phones hmem hc (hc'.trans hphone.symm)
      rw [heq]

/-- The request leaves the customer's number what it is. -/
def KeepsNumber (id : Uuid) (number : List Char) : CustomerRequest → Prop
  | .create _ _ => True
  | .update id' dto => id' = id → ∀ typed ∈ dto.phone, Spells typed number

/-- A customer outlives a request, and their number one that keeps it. -/
theorem DirectoryStep.keeps {dir dir' : Directory} {r : CustomerRequest}
    (h : DirectoryStep dir r dir') (hinv : DirectoryInv dir) {id : Uuid} {number : List Char}
    (hlen : number.length = 10) (hr : KeepsNumber id number r)
    (hc : ∃ c ∈ dir.customers, c.id = id ∧ c.phone = String.ofList number) :
    ∃ c ∈ dir'.customers, c.id = id ∧ c.phone = String.ofList number := by
  obtain ⟨c, hc, hid, hphone⟩ := hc
  cases h with
  | created c' hphone' hnew => exact ⟨c, List.mem_append_left _ hc, hid, hphone⟩
  | updated hmem hid' hsame hphone' hown =>
      rename_i id' dto existing c'
      -- an edit of another customer leaves this row as it is
      by_cases hmine : c.id = existing.id
      · have heq : existing = c := List.inj_on_of_nodup_map hinv.ids hmem hc hmine.symm
        refine ⟨c', ?_, hsame.trans (hmine.symm.trans hid), ?_⟩
        · refine List.mem_map.mpr ⟨c, hc, ?_⟩
          rw [if_pos hmine]
        · rcases hphone' with ⟨-, hkept⟩ | ⟨typed, htyped, hwritten⟩
          · rw [hkept, heq]
            exact hphone
          · rw [hwritten]
            refine normalizePhone_spells hlen (hr ?_ typed htyped)
            exact hid'.symm.trans (hmine.symm.trans hid)
      · refine ⟨c, ?_, hid, hphone⟩
        refine List.mem_map.mpr ⟨c, hc, ?_⟩
        rw [if_neg hmine]

/-- A run of such requests keeps the customer with their number. -/
theorem run_keeps {dir dir' : Directory} {rs : List CustomerRequest}
    (hrun : directory.Run dir rs dir') (hinv : DirectoryInv dir) {id : Uuid}
    {number : List Char} (hlen : number.length = 10) (hrs : ∀ r ∈ rs, KeepsNumber id number r)
    (hc : ∃ c ∈ dir.customers, c.id = id ∧ c.phone = String.ofList number) :
    DirectoryInv dir' ∧ ∃ c ∈ dir'.customers, c.id = id ∧ c.phone = String.ofList number := by
  induction hrun with
  | nil dir => exact ⟨hinv, hc⟩
  | cons hstep hrest ih =>
      have hdir := performCustomer_step hstep
      refine ih (hinv.step hdir) (fun r hr => hrs r (List.mem_cons_of_mem _ hr)) ?_
      exact hdir.keeps hinv hlen (hrs _ List.mem_cons_self) hc

/-- A number that is taken is refused, however it is spelled. -/
theorem createCustomer_taken {dir : Directory} {c : CustomerRow} (hc : c ∈ dir.customers)
    {env : Env} {dto : CreateCustomerDto} (hphone : normalizePhone dto.phone = c.phone) :
    createCustomer dir env dto
      = .error (.conflict "A customer with that phone number already exists") := by
  have hvalid : isPhone (normalizePhone dto.phone) = true := by
    rw [hphone]
    exact c.phone_digits
  have hfield : phoneField dto.phone = .ok ⟨normalizePhone dto.phone, hvalid⟩ := dif_pos hvalid
  unfold createCustomer
  rw [hfield, ok_bind]
  simp only [require]
  rw [if_neg]
  · rfl
  · intro hall
    exact (hall c hc).2 hphone.symm

/-- **A phone is an identity.**  In every state that follows, by requests that leave the
customer's number alone, every spelling of it finds that customer at the till, and no
spelling of it can be given to a new one. -/
theorem phone_is_identity {dir dir' : Directory} {rs : List CustomerRequest}
    (h : directory.Reachable dir) (hrun : directory.Run dir rs dir') {c : CustomerRow}
    (hc : c ∈ dir.customers) {number : List Char} (hlen : number.length = 10)
    (hphone : c.phone = String.ofList number) (hrs : ∀ r ∈ rs, KeepsNumber c.id number r) :
    ∃ c' ∈ dir'.customers, c'.id = c.id ∧ ∀ typed, Spells typed number →
      findByPhone dir' typed = some c'
        ∧ ∀ env dto, dto.phone = typed → createCustomer dir' env dto
          = .error (.conflict "A customer with that phone number already exists") := by
  obtain ⟨hinv', c', hc', hid, hphone'⟩ :=
    run_keeps hrun (directory_inv h) hlen hrs ⟨c, hc, rfl, hphone⟩
  refine ⟨c', hc', hid, fun typed hspells => ?_⟩
  have hform : c'.phone = normalizePhone typed := by
    rw [hphone', normalizePhone_spells hlen hspells]
  refine ⟨findByPhone_of_mem hinv' hc' hform, ?_⟩
  rintro env dto rfl
  exact createCustomer_taken hc' hform.symm

/-! A regular, entered with the country code and looked up without. -/

/-- A customer who types her number with a country code. -/
def asha : CreateCustomerDto := ⟨"Asha", "+91 98765-43210", none, none, none⟩

/-- The same customer, a longer name and another spelling of the number. -/
def renamed : UpdateCustomerDto := ⟨some "Asha Rao", some "098765 43210", none, none, none⟩

/-- A restaurant that knows nobody yet. -/
def newRestaurant : Directory := ⟨[], []⟩

/-- A request that succeeded, and what it left. -/
def performed (dir : Directory) (r : CustomerRequest) : Option Directory :=
  (performCustomer dir r).toOption

theorem performed_step (dir : Directory) (r : CustomerRequest) (dir' : Directory)
    (h : performed dir r = some dir') : directory.step dir r dir' := by
  show performCustomer dir r = .ok dir'
  unfold performed at h
  cases hp : performCustomer dir r with
  | error e =>
      rw [hp] at h
      cases h
  | ok d =>
      rw [hp] at h
      cases h
      rfl

/-- The restaurant with its first customer. -/
def withAsha : Directory := ((performed newRestaurant (.create ⟨1, 0⟩ asha))).getD newRestaurant

/-- The directory after the edit. -/
def withAshaRenamed : Directory := (performed withAsha (.update 1 renamed)).getD withAsha

/-- Found under a third spelling after the edit under the second. -/
theorem phone_is_identity_asha : ∃ c' ∈ withAshaRenamed.customers, c'.id = 1
    ∧ findByPhone withAshaRenamed "98765 43210" = some c' := by
  have hfirst : directory.step newRestaurant (.create ⟨1, 0⟩ asha) withAsha :=
    performed_step _ _ _ rfl
  have hsecond : directory.step withAsha (.update 1 renamed) withAshaRenamed :=
    performed_step _ _ _ rfl
  have hempty : directory.init newRestaurant := ⟨rfl, rfl⟩
  have hreach : directory.Reachable withAsha := (System.Reachable.init hempty).step hfirst
  have hphone : withAsha.customers[0].phone = String.ofList "9876543210".toList := by decide
  have hkept : ∀ r ∈ [CustomerRequest.update 1 renamed],
      KeepsNumber withAsha.customers[0].id "9876543210".toList r := by
    intro r hr
    rw [List.mem_singleton.mp hr]
    intro _ typed htyped
    cases htyped
    exact .inr (.inr (by decide))
  obtain ⟨c', hc', hid, hfind⟩ := phone_is_identity hreach (.cons hsecond (.nil _))
    List.mem_cons_self (by decide) hphone hkept
  exact ⟨c', hc', hid, (hfind "98765 43210" (.inl (by decide))).1⟩

end OraOS.Customers
