import ForwardX.Panel.Affiliates

/- The affiliate wallet in closed form. Every operation posts one row for each amount that it
   moves, beside the change of the commission or the withdrawal that the row is about. -/
namespace ForwardX.Panel
open Transition

/-! ## Sums -/

def walletSum (userId : Nat) (rows : List LedgerRow) : Int :=
  (rows.map (fun r => if r.userId = userId then r.amountCents else 0)).sum

def commissionSum (userId : Nat) (commissions : List Commission) : Int :=
  (commissions.map (fun c => if c.userId = userId ∧ c.status = .available then c.amountCents else 0)).sum

/-- The sum of the withdrawals of a user that are pending or paid. -/
def withdrawalSum (userId : Nat) (withdrawals : List Withdrawal) : Int :=
  (withdrawals.map (fun r => if r.userId = userId ∧ (r.status = .pending ∨ r.status = .paid) then
    r.amountCents else 0)).sum

def transferSum (userId : Nat) (rows : List LedgerRow) : Int :=
  (rows.map (fun r => if r.userId = userId ∧ r.type = .transfer then -r.amountCents else 0)).sum

/-- The users and amounts of the rows of a type that refer to something. -/
def postings (rows : List LedgerRow) (type : LedgerType) (reference : String) : List (Nat × Int) :=
  (rows.filter (fun r => r.type = type && r.reference = reference)).map (fun r => (r.userId, r.amountCents))

theorem walletSum_concat (u : Nat) (rows : List LedgerRow) (r : LedgerRow) :
    walletSum u (rows ++ [r]) = walletSum u rows + if r.userId = u then r.amountCents else 0 := by
  unfold walletSum
  rw [List.map_append, List.sum_append, List.map_singleton, List.sum_singleton]

theorem transferSum_concat (u : Nat) (rows : List LedgerRow) (r : LedgerRow) :
    transferSum u (rows ++ [r]) =
      transferSum u rows + if r.userId = u ∧ r.type = .transfer then -r.amountCents else 0 := by
  unfold transferSum
  rw [List.map_append, List.sum_append, List.map_singleton, List.sum_singleton]

theorem postings_concat (rows : List LedgerRow) (r : LedgerRow) (type : LedgerType) (reference : String) :
    postings (rows ++ [r]) type reference = postings rows type reference ++
      if r.type = type ∧ r.reference = reference then [(r.userId, r.amountCents)] else [] := by
  unfold postings
  rw [List.filter_append, List.map_append, List.filter_singleton]
  by_cases h : r.type = type ∧ r.reference = reference
  · simp [h]
  · rw [if_neg h]
    rw [not_and] at h
    by_cases htype : r.type = type
    · simp [htype, h htype]
    · simp [htype]

theorem postings_other {r : LedgerRow} {type : LedgerType} {reference : String} (rows : List LedgerRow)
    (h : r.type ≠ type ∨ r.reference ≠ reference) :
    postings (rows ++ [r]) type reference = postings rows type reference := by
  rw [postings_concat, if_neg (fun heq => h.elim (· heq.1) (· heq.2)), List.append_nil]

theorem postings_own {r : LedgerRow} {type : LedgerType} {reference : String} (rows : List LedgerRow)
    (htype : r.type = type) (hreference : r.reference = reference) :
    postings (rows ++ [r]) type reference = postings rows type reference ++ [(r.userId, r.amountCents)] := by
  rw [postings_concat, if_pos ⟨htype, hreference⟩]

theorem toString_inj {m n : Nat} (h : toString m = toString n) : m = n := by
  have hdigits : Nat.toDigits 10 m = Nat.toDigits 10 n := by
    have hlists := congrArg String.toList h
    rw [Nat.toString_eq_repr, Nat.toString_eq_repr, Nat.toList_repr, Nat.toList_repr] at hlists
    exact hlists
  calc
    m = Nat.ofDigitChars 10 (Nat.toDigits 10 m) 0 := Nat.ofDigitChars_ten_toDigits.symm
    _ = Nat.ofDigitChars 10 (Nat.toDigits 10 n) 0 := by rw [hdigits]
    _ = n := Nat.ofDigitChars_ten_toDigits

/-! ## The book -/

/-- The accounts and the ledger agree, and every row ends at the running sum of its user. -/
structure Book (accounts : List AffiliateAccount) (rows : List LedgerRow) : Prop where
  ids : (accounts.map (·.userId)).Nodup
  available : ∀ a ∈ accounts, a.availableCents = walletSum a.userId rows
  owned : ∀ r ∈ rows, ∃ a ∈ accounts, a.userId = r.userId
  running : ∀ rs r rest, rows = rs ++ r :: rest → r.balanceAfterCents = walletSum r.userId (rs ++ [r])

def HasAccount (w : Affiliates) (userId : Nat) : Prop := ∃ a ∈ w.accounts, a.userId = userId

variable {rows : List LedgerRow} {r : LedgerRow}

theorem walletSum_unowned {u : Nat} (h : ∀ r ∈ rows, r.userId ≠ u) : walletSum u rows = 0 := by
  unfold walletSum
  apply List.sum_eq_zero
  intro x hx
  obtain ⟨r, hr, rfl⟩ := List.mem_map.mp hx
  exact if_neg (h r hr)

theorem Book.availableCents_eq {w : Affiliates} (h : Book w.accounts w.ledger) (u : Nat) :
    availableCents w u = walletSum u w.ledger := by
  unfold availableCents
  cases hfind : Rows.find (·.userId) w.accounts u with
  | none =>
    rw [Option.elim_none, walletSum_unowned]
    rintro r hr rfl
    obtain ⟨a, ha, hu⟩ := h.owned r hr
    exact Rows.find_eq_none.mp hfind a ha hu
  | some a =>
    rw [Option.elim_some, h.available a (Rows.mem_of_find hfind), Rows.key_of_find hfind]

section
variable {w : Affiliates} (h : Book w.accounts w.ledger)
include h

theorem lockAccount_spec (u : Nat) (now : Int) :
    Book (lockAccount w u now).2.accounts (lockAccount w u now).2.ledger ∧ HasAccount (lockAccount w u now).2 u ∧
      (lockAccount w u now).2.commissions = w.commissions ∧ (lockAccount w u now).2.withdrawals = w.withdrawals ∧
      (lockAccount w u now).2.ledger = w.ledger ∧ (lockAccount w u now).2.config = w.config ∧
      (lockAccount w u now).1.availableCents = walletSum u w.ledger := by
  unfold lockAccount
  split
  · rename_i account hfind
    refine ⟨h, ⟨account, Rows.mem_of_find hfind, Rows.key_of_find hfind⟩, rfl, rfl, rfl, rfl, ?_⟩
    rw [h.available account (Rows.mem_of_find hfind), Rows.key_of_find hfind]
  · rename_i hnone
    have hfresh := Rows.find_eq_none.mp hnone
    have hzero : walletSum u w.ledger = 0 := by
      apply walletSum_unowned
      rintro r hr rfl
      obtain ⟨a, ha, hu⟩ := h.owned r hr
      exact hfresh a ha hu
    refine ⟨⟨?_, fun a ha => ?_, fun r hr => ?_, h.running⟩, ?_, rfl, rfl, rfl, rfl, hzero.symm⟩
    · rw [List.map_append, List.map_singleton]
      refine List.nodup_append.mpr ⟨h.ids, List.nodup_singleton _, ?_⟩
      rintro k hk _ hnew rfl
      obtain ⟨a, ha, rfl⟩ := List.mem_map.mp hk
      exact hfresh a ha (List.mem_singleton.mp hnew)
    · rcases List.mem_append.mp ha with ha | ha
      · exact h.available a ha
      · obtain rfl := List.mem_singleton.mp ha
        exact hzero.symm
    · obtain ⟨a, ha, hu⟩ := h.owned r hr
      exact ⟨a, List.mem_append_left _ ha, hu⟩
    · exact ⟨_, List.mem_append_right _ (List.mem_singleton.mpr rfl), rfl⟩

theorem ledger_spec {u : Nat} (hu : HasAccount w u) (type : LedgerType) (amountCents : Int) (reference : String)
    (op : Option Nat) (note : Option String) (now : Int) :
    ∃ r, (ledger w u type amountCents reference op note now).ledger = w.ledger ++ [r] ∧ r.userId = u ∧
      r.type = type ∧ r.amountCents = amountCents ∧ r.reference = reference ∧
      (ledger w u type amountCents reference op note now).accounts =
        Rows.set (·.userId) w.accounts u (fun a => { a with availableCents := a.availableCents + amountCents }) ∧
      Book (ledger w u type amountCents reference op note now).accounts (w.ledger ++ [r]) := by
  obtain ⟨a₀, ha₀, rfl⟩ := hu
  have hkeys : ∀ a : AffiliateAccount, AffiliateAccount.userId { a with
      availableCents := a.availableCents + amountCents } = a.userId := fun _ => rfl
  have hafter : availableCents { w with accounts := Rows.set (·.userId) w.accounts a₀.userId (fun a =>
      { a with availableCents := a.availableCents + amountCents }) } a₀.userId =
      walletSum a₀.userId w.ledger + amountCents := by
    unfold availableCents
    rw [Rows.find_set_self hkeys, Rows.find_of_mem h.ids ha₀, Option.map_some, Option.elim_some,
      h.available a₀ ha₀]
  refine ⟨_, rfl, rfl, rfl, rfl, rfl, rfl, ?_, fun a ha => ?_, fun r hr => ?_, fun rs r rest hrest => ?_⟩
  · unfold ledger
    rw [Rows.keys_set hkeys]
    exact h.ids
  · rw [walletSum_concat]
    rcases Rows.mem_set.mp ha with ⟨a', ha', hkey, rfl⟩ | ⟨ha, hkey⟩
    · rw [if_pos hkey.symm, ← h.available a' ha']
    · rw [if_neg (Ne.symm hkey), h.available a ha, add_zero]
  · rcases List.mem_append.mp hr with hr | hr
    · obtain ⟨a, ha, hu⟩ := h.owned r hr
      by_cases hkey : a.userId = a₀.userId
      · exact ⟨_, Rows.mem_set.mpr (.inl ⟨a, ha, hkey, rfl⟩), hu⟩
      · exact ⟨a, Rows.mem_set.mpr (.inr ⟨ha, hkey⟩), hu⟩
    · obtain rfl := List.mem_singleton.mp hr
      exact ⟨_, Rows.mem_set.mpr (.inl ⟨a₀, ha₀, rfl, rfl⟩), rfl⟩
  · rcases Slots.snoc_split hrest with ⟨rfl, rfl, -⟩ | ⟨rest', -, hrows⟩
    · rw [walletSum_concat, if_pos rfl]
      exact hafter
    · exact h.running rs r rest' hrows

end

/-! ## Commissions -/

/-- A commission was credited when it became available, and reversed when it was cancelled after
that. -/
def CommissionOk (rows : List LedgerRow) (c : Commission) : Prop :=
  match c.status with
  | .pending => postings rows .commission (toString c.id) = [] ∧ postings rows .reversal (toString c.id) = []
  | .available => postings rows .commission (toString c.id) = [(c.userId, c.amountCents)] ∧
      postings rows .reversal (toString c.id) = []
  | .cancelled => (postings rows .commission (toString c.id) = [] ∧ postings rows .reversal (toString c.id) = []) ∨
      (postings rows .commission (toString c.id) = [(c.userId, c.amountCents)] ∧
        postings rows .reversal (toString c.id) = [(c.userId, -c.amountCents)])

structure CommissionsOk (commissions : List Commission) (rows : List LedgerRow) : Prop where
  ids : (commissions.map (·.id)).Nodup
  orderNos : (commissions.map (·.orderNo)).Nodup
  amounts : ∀ c ∈ commissions, 0 ≤ c.amountCents
  each : ∀ c ∈ commissions, CommissionOk rows c
  unknown : ∀ id, (∀ c ∈ commissions, c.id ≠ id) →
    postings rows .commission (toString id) = [] ∧ postings rows .reversal (toString id) = []

def LedgerRow.BesideCommission (r : LedgerRow) (id : Nat) : Prop :=
  (r.type ≠ .commission ∧ r.type ≠ .reversal) ∨ r.reference ≠ toString id

theorem LedgerRow.BesideCommission.postings {id : Nat} (h : r.BesideCommission id) (rows : List LedgerRow) :
    postings (rows ++ [r]) .commission (toString id) = postings rows .commission (toString id) ∧
      postings (rows ++ [r]) .reversal (toString id) = postings rows .reversal (toString id) := by
  rcases h with ⟨hcommission, hreversal⟩ | hreference
  · exact ⟨postings_other rows (.inl hcommission), postings_other rows (.inl hreversal)⟩
  · exact ⟨postings_other rows (.inr hreference), postings_other rows (.inr hreference)⟩

theorem CommissionOk.beside {c : Commission} (h : CommissionOk rows c) (hr : r.BesideCommission c.id) :
    CommissionOk (rows ++ [r]) c := by
  obtain ⟨hcommission, hreversal⟩ := hr.postings rows
  unfold CommissionOk at *
  rw [hcommission, hreversal]
  exact h

section
variable {commissions : List Commission} {rows : List LedgerRow} (h : CommissionsOk commissions rows)
include h

theorem CommissionsOk.beside (hr : ∀ id, r.BesideCommission id) : CommissionsOk commissions (rows ++ [r]) := by
  refine ⟨h.ids, h.orderNos, h.amounts, fun c hc => (h.each c hc).beside (hr c.id), fun id hid => ?_⟩
  obtain ⟨hcommission, hreversal⟩ := (hr id).postings rows
  rw [hcommission, hreversal]
  exact h.unknown id hid

theorem CommissionsOk.write {c : Commission} (hc : c ∈ commissions) {f : Commission → Commission}
    (hf : ∀ c, (f c).id = c.id ∧ (f c).orderNo = c.orderNo ∧ (f c).amountCents = c.amountCents)
    (hr : r.reference = toString c.id) (hok : CommissionOk (rows ++ [r]) (f c)) :
    CommissionsOk (Rows.set (·.id) commissions c.id f) (rows ++ [r]) := by
  have hbeside : ∀ id, id ≠ c.id → r.BesideCommission id := by
    intro id hne
    refine .inr (fun heq => hne ?_)
    exact toString_inj (heq.symm.trans hr)
  refine ⟨?_, ?_, fun c' hc' => ?_, fun c' hc' => ?_, fun id hid => ?_⟩
  · rw [Rows.keys_set (fun c => (hf c).1)]
    exact h.ids
  · rw [Rows.map_set (fun c => (hf c).2.1)]
    exact h.orderNos
  · rcases Rows.mem_set.mp hc' with ⟨c₀, hc₀, -, rfl⟩ | ⟨hc', -⟩
    · rw [(hf c₀).2.2]
      exact h.amounts c₀ hc₀
    · exact h.amounts c' hc'
  · rcases Rows.mem_set.mp hc' with ⟨c₀, hc₀, hid, rfl⟩ | ⟨hc', hid⟩
    · obtain rfl := Rows.eq_of_key h.ids hc₀ hc hid
      exact hok
    · exact (h.each c' hc').beside (hbeside _ hid)
  · have hfresh := Rows.absent_of_set (fun c => (hf c).1) hid
    obtain ⟨hcommission, hreversal⟩ := (hbeside id (Ne.symm (hfresh c hc))).postings rows
    rw [hcommission, hreversal]
    exact h.unknown id hfresh

theorem CommissionsOk.add {c : Commission} (hid : c.id = Rows.fresh (·.id) commissions)
    (horder : ∀ c' ∈ commissions, c'.orderNo ≠ c.orderNo) (hamount : 0 ≤ c.amountCents) (hpending : c.status = .pending) :
    CommissionsOk (commissions ++ [c]) rows := by
  have hfresh : ∀ c' ∈ commissions, c'.id ≠ c.id := by
    intro c' hc'
    exact Nat.ne_of_lt (hid ▸ @Rows.lt_fresh _ (·.id) _ _ hc')
  refine ⟨Rows.nodup_concat_fresh h.ids hid, ?_, fun c' hc' => ?_, fun c' hc' => ?_, fun id hne => ?_⟩
  · rw [List.map_append, List.map_singleton]
    refine List.nodup_append.mpr ⟨h.orderNos, List.nodup_singleton _, ?_⟩
    rintro k hk _ hnew rfl
    obtain ⟨c', hc', rfl⟩ := List.mem_map.mp hk
    exact horder c' hc' (List.mem_singleton.mp hnew)
  · rcases List.mem_append.mp hc' with hc' | hc'
    · exact h.amounts c' hc'
    · obtain rfl := List.mem_singleton.mp hc'
      exact hamount
  · rcases List.mem_append.mp hc' with hc' | hc'
    · exact h.each c' hc'
    · obtain rfl := List.mem_singleton.mp hc'
      unfold CommissionOk
      rw [hpending]
      exact h.unknown c'.id hfresh
  · exact h.unknown id (fun c' hc' => hne c' (List.mem_append_left _ hc'))

end

/-! ## Withdrawals -/

/-- A withdrawal was debited once, and given back or paid out when it was reviewed. -/
def WithdrawalOk (rows : List LedgerRow) (r : Withdrawal) : Prop :=
  postings rows .withdrawal (toString r.id) = [(r.userId, -r.amountCents)] ∧
  match r.status with
  | .pending => postings rows .withdrawalReturn (toString r.id) = [] ∧ postings rows .payout (toString r.id) = []
  | .paid => postings rows .withdrawalReturn (toString r.id) = [] ∧
      postings rows .payout (toString r.id) = [(r.userId, 0)]
  | .rejected => postings rows .withdrawalReturn (toString r.id) = [(r.userId, r.amountCents)] ∧
      postings rows .payout (toString r.id) = []

structure WithdrawalsOk (withdrawals : List Withdrawal) (rows : List LedgerRow) : Prop where
  ids : (withdrawals.map (·.id)).Nodup
  requestKeys : (withdrawals.map (fun r => (r.userId, r.requestKey))).Nodup
  amounts : ∀ r ∈ withdrawals, 0 < r.amountCents
  each : ∀ r ∈ withdrawals, WithdrawalOk rows r
  unknown : ∀ id, (∀ r ∈ withdrawals, r.id ≠ id) → postings rows .withdrawal (toString id) = [] ∧
    postings rows .withdrawalReturn (toString id) = [] ∧ postings rows .payout (toString id) = []

def LedgerRow.BesideWithdrawal (r : LedgerRow) (id : Nat) : Prop :=
  (r.type ≠ .withdrawal ∧ r.type ≠ .withdrawalReturn ∧ r.type ≠ .payout) ∨ r.reference ≠ toString id

theorem LedgerRow.BesideWithdrawal.postings {id : Nat} (h : r.BesideWithdrawal id) (rows : List LedgerRow) :
    postings (rows ++ [r]) .withdrawal (toString id) = postings rows .withdrawal (toString id) ∧
      postings (rows ++ [r]) .withdrawalReturn (toString id) = postings rows .withdrawalReturn (toString id) ∧
      postings (rows ++ [r]) .payout (toString id) = postings rows .payout (toString id) := by
  rcases h with ⟨hwithdrawal, hreturn, hpayout⟩ | hreference
  · exact ⟨postings_other rows (.inl hwithdrawal), postings_other rows (.inl hreturn),
      postings_other rows (.inl hpayout)⟩
  · exact ⟨postings_other rows (.inr hreference), postings_other rows (.inr hreference),
      postings_other rows (.inr hreference)⟩

theorem WithdrawalOk.beside {x : Withdrawal} (h : WithdrawalOk rows x) (hr : r.BesideWithdrawal x.id) :
    WithdrawalOk (rows ++ [r]) x := by
  obtain ⟨hwithdrawal, hreturn, hpayout⟩ := hr.postings rows
  unfold WithdrawalOk at *
  rw [hwithdrawal, hreturn, hpayout]
  exact h

section
variable {withdrawals : List Withdrawal} {rows : List LedgerRow} (h : WithdrawalsOk withdrawals rows)
include h

theorem WithdrawalsOk.beside (hr : ∀ id, r.BesideWithdrawal id) : WithdrawalsOk withdrawals (rows ++ [r]) := by
  refine ⟨h.ids, h.requestKeys, h.amounts, fun x hx => (h.each x hx).beside (hr x.id), fun id hid => ?_⟩
  obtain ⟨hwithdrawal, hreturn, hpayout⟩ := (hr id).postings rows
  rw [hwithdrawal, hreturn, hpayout]
  exact h.unknown id hid

theorem WithdrawalsOk.write {x : Withdrawal} (hx : x ∈ withdrawals) {f : Withdrawal → Withdrawal}
    (hf : ∀ x, (f x).id = x.id ∧ (f x).userId = x.userId ∧ (f x).requestKey = x.requestKey ∧
      (f x).amountCents = x.amountCents) (hr : r.reference = toString x.id) (hok : WithdrawalOk (rows ++ [r]) (f x)) :
    WithdrawalsOk (Rows.set (·.id) withdrawals x.id f) (rows ++ [r]) := by
  have hbeside : ∀ id, id ≠ x.id → r.BesideWithdrawal id := by
    intro id hne
    refine .inr (fun heq => hne ?_)
    exact toString_inj (heq.symm.trans hr)
  refine ⟨?_, ?_, fun y hy => ?_, fun y hy => ?_, fun id hid => ?_⟩
  · rw [Rows.keys_set (fun x => (hf x).1)]
    exact h.ids
  · rw [Rows.map_set (g := fun x => (x.userId, x.requestKey)) (fun x => Prod.ext (hf x).2.1 (hf x).2.2.1)]
    exact h.requestKeys
  · rcases Rows.mem_set.mp hy with ⟨x₀, hx₀, -, rfl⟩ | ⟨hy, -⟩
    · rw [(hf x₀).2.2.2]
      exact h.amounts x₀ hx₀
    · exact h.amounts y hy
  · rcases Rows.mem_set.mp hy with ⟨x₀, hx₀, hid, rfl⟩ | ⟨hy, hid⟩
    · obtain rfl := Rows.eq_of_key h.ids hx₀ hx hid
      exact hok
    · exact (h.each y hy).beside (hbeside _ hid)
  · have hfresh := Rows.absent_of_set (fun x => (hf x).1) hid
    obtain ⟨hwithdrawal, hreturn, hpayout⟩ := (hbeside id (Ne.symm (hfresh x hx))).postings rows
    rw [hwithdrawal, hreturn, hpayout]
    exact h.unknown id hfresh

theorem WithdrawalsOk.add {x : Withdrawal} (hid : x.id = Rows.fresh (·.id) withdrawals)
    (hkey : ∀ y ∈ withdrawals, ¬ (y.userId = x.userId ∧ y.requestKey = x.requestKey)) (hamount : 0 < x.amountCents)
    (hpending : x.status = .pending) (hr : r.reference = toString x.id) (htype : r.type = .withdrawal)
    (huser : r.userId = x.userId) (hdebit : r.amountCents = -x.amountCents) :
    WithdrawalsOk (withdrawals ++ [x]) (rows ++ [r]) := by
  have hfresh : ∀ y ∈ withdrawals, y.id ≠ x.id := by
    intro y hy
    exact Nat.ne_of_lt (hid ▸ @Rows.lt_fresh _ (·.id) _ _ hy)
  have hbeside : ∀ id, id ≠ x.id → r.BesideWithdrawal id := by
    intro id hne
    refine .inr (fun heq => hne ?_)
    exact toString_inj (heq.symm.trans hr)
  refine ⟨Rows.nodup_concat_fresh h.ids hid, ?_, fun y hy => ?_, fun y hy => ?_, fun id hne => ?_⟩
  · rw [List.map_append, List.map_singleton]
    refine List.nodup_append.mpr ⟨h.requestKeys, List.nodup_singleton _, ?_⟩
    rintro k hk _ hnew rfl
    obtain ⟨y, hy, heq⟩ := List.mem_map.mp hk
    obtain ⟨huserId, hrequest⟩ := Prod.mk.inj (heq.trans (List.mem_singleton.mp hnew))
    exact hkey y hy ⟨huserId, hrequest⟩
  · rcases List.mem_append.mp hy with hy | hy
    · exact h.amounts y hy
    · obtain rfl := List.mem_singleton.mp hy
      exact hamount
  · rcases List.mem_append.mp hy with hy | hy
    · exact (h.each y hy).beside (hbeside _ (hfresh y hy))
    · obtain rfl := List.mem_singleton.mp hy
      obtain ⟨hwithdrawal, hreturn, hpayout⟩ := h.unknown y.id hfresh
      have hother : ∀ {type : LedgerType}, r.type ≠ type →
          postings (rows ++ [r]) type (toString y.id) = postings rows type (toString y.id) :=
        fun hne => postings_other rows (.inl hne)
      unfold WithdrawalOk
      rw [hpending, postings_own rows htype hr, hother (by rw [htype]; decide), hother (by rw [htype]; decide),
        hwithdrawal, hreturn, hpayout, huser, hdebit]
      exact ⟨rfl, rfl, rfl⟩
  · have hx : id ≠ x.id := fun heq =>
      hne x (List.mem_append_right _ (List.mem_singleton.mpr rfl)) heq.symm
    obtain ⟨hwithdrawal, hreturn, hpayout⟩ := (hbeside id hx).postings rows
    rw [hwithdrawal, hreturn, hpayout]
    exact h.unknown id (fun y hy => hne y (List.mem_append_left _ hy))

end

/-! ## The invariant -/

def transferKeys (rows : List LedgerRow) : List (Nat × String) :=
  (rows.filter (fun r => r.type = .transfer)).map (fun r => (r.userId, r.reference))

theorem transferKeys_concat (rows : List LedgerRow) (r : LedgerRow) :
    transferKeys (rows ++ [r]) = transferKeys rows ++ if r.type = .transfer then [(r.userId, r.reference)] else [] := by
  unfold transferKeys
  rw [List.filter_append, List.map_append, List.filter_singleton]
  by_cases h : r.type = .transfer
  · simp [h]
  · simp [h]

structure WalletInv (w : Affiliates) : Prop where
  book : Book w.accounts w.ledger
  commissions : CommissionsOk w.commissions w.ledger
  withdrawals : WithdrawalsOk w.withdrawals w.ledger
  transfers : (transferKeys w.ledger).Nodup
  closed : ∀ u, walletSum u w.ledger =
    commissionSum u w.commissions - withdrawalSum u w.withdrawals - transferSum u w.ledger

section
variable {w : Affiliates} (h : WalletInv w)
include h

theorem WalletInv.lock (u : Nat) (now : Int) :
    WalletInv (lockAccount w u now).2 ∧ HasAccount (lockAccount w u now).2 u := by
  obtain ⟨hbook, haccount, hcommissions, hwithdrawals, hledger, -, -⟩ := lockAccount_spec h.book u now
  refine ⟨⟨hbook, ?_, ?_, ?_, ?_⟩, haccount⟩
  · rw [hcommissions, hledger]
    exact h.commissions
  · rw [hwithdrawals, hledger]
    exact h.withdrawals
  · rw [hledger]
    exact h.transfers
  · rw [hcommissions, hwithdrawals, hledger]
    exact h.closed

end

/-- What the settlement of the due commissions of a user leaves. -/
structure WalletSettled (u : Nat) (w w' : Affiliates) : Prop where
  inv : WalletInv w'
  account : HasAccount w' u
  withdrawals : w'.withdrawals = w.withdrawals
  config : w'.config = w.config
  transfers : transferKeys w'.ledger = transferKeys w.ledger
  grows : ∀ v, walletSum v w.ledger ≤ walletSum v w'.ledger

theorem Commission.settle_same (now : Int) (c : Commission) : (c.settle now).id = c.id ∧
    (c.settle now).orderNo = c.orderNo ∧ (c.settle now).amountCents = c.amountCents := by
  unfold Commission.settle
  split
  · exact ⟨rfl, rfl, rfl⟩
  · exact ⟨rfl, rfl, rfl⟩

theorem WalletInv.credit {w : Affiliates} (h : WalletInv w) {u : Nat} (hu : HasAccount w u) {row : Commission}
    (hrow : row ∈ w.commissions) (hpending : row.status = .pending) (huser : row.userId = u) (now : Int) :
    WalletSettled u w (settleCommission u now w row) ∧ ∀ c ∈ w.commissions, c.id ≠ row.id →
      c ∈ (settleCommission u now w row).commissions := by
  have hbook : Book ({ w with commissions := Rows.set (·.id) w.commissions row.id (Commission.settle now) } :
      Affiliates).accounts w.ledger := h.book
  obtain ⟨r, hledger, hruser, htype, hamount, hreference, haccounts, hbook'⟩ :=
    ledger_spec hbook hu .commission row.amountCents (toString row.id) none none now
  have hledger' : (settleCommission u now w row).ledger = w.ledger ++ [r] := hledger
  have haccounts' : (settleCommission u now w row).accounts = Rows.set (·.userId) w.accounts u (fun a =>
      { a with availableCents := a.availableCents + row.amountCents }) := haccounts
  have hcommissions : (settleCommission u now w row).commissions =
      Rows.set (·.id) w.commissions row.id (Commission.settle now) := rfl
  have hsettled : Commission.settle now row = { row with status := .available, settledAt := some now } :=
    if_pos hpending
  have hnonneg := h.commissions.amounts row hrow
  obtain ⟨hcredits, hreversals⟩ : postings w.ledger .commission (toString row.id) = [] ∧
      postings w.ledger .reversal (toString row.id) = [] := by
    have hok := h.commissions.each row hrow
    unfold CommissionOk at hok
    rw [hpending] at hok
    exact hok
  refine ⟨⟨⟨?_, ?_, ?_, ?_, fun v => ?_⟩, ?_, rfl, rfl, ?_, fun v => ?_⟩, fun c hc hne => ?_⟩
  · rw [hledger']
    exact hbook'
  · rw [hledger', hcommissions]
    apply h.commissions.write hrow (Commission.settle_same now) hreference
    rw [hsettled]
    unfold CommissionOk
    dsimp only
    rw [postings_own w.ledger htype hreference, postings_other w.ledger (.inl (by rw [htype]; decide)), hcredits,
      hreversals, hruser, hamount, huser]
    exact ⟨rfl, rfl⟩
  · rw [hledger']
    exact h.withdrawals.beside (fun id => .inl (by rw [htype]; decide))
  · rw [hledger', transferKeys_concat, htype, if_neg (by decide), List.append_nil]
    exact h.transfers
  · have hsum := Rows.sum_set h.commissions.ids hrow (Commission.settle now)
      (fun c : Commission => if c.userId = v ∧ c.status = .available then c.amountCents else 0)
    have hclosed := h.closed v
    rw [hledger', walletSum_concat, transferSum_concat, hcommissions, hruser, htype, hamount]
    unfold commissionSum at *
    rw [hsum, hclosed, hsettled, hpending, huser]
    by_cases hv : u = v
    · simp [hv]
      unfold settleCommission ledger
      ring
    · simp [hv]
      rfl
  · obtain ⟨a, ha, hau⟩ := hu
    unfold HasAccount
    rw [haccounts']
    exact ⟨_, Rows.mem_set.mpr (.inl ⟨a, ha, hau, rfl⟩), hau⟩
  · rw [hledger', transferKeys_concat, htype, if_neg (by decide), List.append_nil]
  · rw [hledger', walletSum_concat, hamount]
    split <;> omega
  · rw [hcommissions]
    exact Rows.mem_set.mpr (.inr ⟨hc, hne⟩)

theorem WalletSettled.trans {u : Nat} {w₁ w₂ w₃ : Affiliates} (h₁ : WalletSettled u w₁ w₂) (h₂ : WalletSettled u w₂ w₃) :
    WalletSettled u w₁ w₃ :=
  ⟨h₂.inv, h₂.account, h₂.withdrawals.trans h₁.withdrawals, h₂.config.trans h₁.config,
    h₂.transfers.trans h₁.transfers, fun v => (h₁.grows v).trans (h₂.grows v)⟩

/-- The loop of `settleLocked`: the rows that it has still to visit are as they were read. -/
theorem settle_rows {u : Nat} {now : Int} (due : List Commission) (hnd : (due.map (·.id)).Nodup) :
    ∀ {w : Affiliates}, WalletInv w → HasAccount w u →
      (∀ c ∈ due, c ∈ w.commissions ∧ c.status = .pending ∧ c.userId = u) →
      WalletSettled u w (due.foldl (settleCommission u now) w) := by
  induction due with
  | nil =>
    intro w h hu _
    exact ⟨h, hu, rfl, rfl, rfl, fun _ => le_rfl⟩
  | cons row due ih =>
    intro w h hu hdue
    rw [List.map_cons, List.nodup_cons] at hnd
    obtain ⟨hrow, hpending, huser⟩ := hdue row (List.mem_cons_self ..)
    obtain ⟨hcredit, hrest⟩ := h.credit hu hrow hpending huser now
    rw [List.foldl_cons]
    refine hcredit.trans (ih hnd.2 hcredit.inv hcredit.account (fun c hc => ?_))
    obtain ⟨hmem, hstatus, hcu⟩ := hdue c (List.mem_cons_of_mem _ hc)
    exact ⟨hrest c hmem (fun heq => hnd.1 (heq ▸ List.mem_map_of_mem hc)), hstatus, hcu⟩

theorem WalletInv.settle {w : Affiliates} (h : WalletInv w) {u : Nat} (hu : HasAccount w u) (now : Int) :
    WalletSettled u w (settleLocked w u now) := by
  unfold settleLocked
  apply settle_rows _ _ h hu
  · intro c hc
    obtain ⟨hmem, hcond⟩ := List.mem_filter.mp hc
    simp only [Bool.and_eq_true, decide_eq_true_eq] at hcond
    exact ⟨hmem, hcond.2.1, hcond.1⟩
  · exact h.commissions.ids.sublist (List.filter_sublist.map _)

/-! ## The operations -/

def StaysNonneg (w w' : Affiliates) : Prop :=
  ∀ u, 0 ≤ walletSum u w.ledger → 0 ≤ walletSum u w'.ledger

section
variable {w w' : Affiliates} (h : WalletInv w)
include h

theorem WalletInv.settled {u : Nat} {now : Int} (hw : w' = settleLocked (lockAccount w u now).2 u now) :
    WalletSettled u (lockAccount w u now).2 w' ∧ ∀ v, walletSum v w.ledger ≤ walletSum v w'.ledger := by
  obtain ⟨hlocked, haccount⟩ := h.lock u now
  have hsettled := hlocked.settle haccount now
  rw [← hw] at hsettled
  have hledger := (lockAccount_spec h.book u now).2.2.2.2.1
  exact ⟨hsettled, fun v => hledger ▸ hsettled.grows v⟩

theorem settleAffiliateCommissions_inv (u : Nat) (now : Int) :
    WalletInv (settleAffiliateCommissions w u now) ∧ StaysNonneg w (settleAffiliateCommissions w u now) := by
  obtain ⟨hsettled, hgrows⟩ := @WalletInv.settled _ _ h u now rfl
  exact ⟨hsettled.inv, fun v hv => hv.trans (hgrows v)⟩

variable {c : Commission} {u : Nat}

theorem WalletInv.addCommission (hid : c.id = Rows.fresh (·.id) w.commissions)
    (horder : ∀ c' ∈ w.commissions, c'.orderNo ≠ c.orderNo) (hamount : 0 ≤ c.amountCents)
    (hpending : c.status = .pending) : WalletInv { w with commissions := w.commissions ++ [c] } := by
  refine ⟨h.book, h.commissions.add hid horder hamount hpending, h.withdrawals, h.transfers, fun u => ?_⟩
  have hclosed := h.closed u
  unfold commissionSum at *
  dsimp only
  rw [List.map_append, List.sum_append, List.map_singleton, List.sum_singleton, hpending]
  simp only [reduceCtorEq, and_false, if_false, add_zero]
  exact hclosed

theorem WalletInv.accrued (hid : c.id = Rows.fresh (·.id) w.commissions)
    (horder : ∀ c' ∈ w.commissions, c'.orderNo ≠ c.orderNo) (hamount : 0 ≤ c.amountCents)
    (hpending : c.status = .pending) (hu : HasAccount w u) (now : Int) :
    WalletSettled u { w with commissions := w.commissions ++ [c] }
      (settleLocked { w with commissions := w.commissions ++ [c] } u now) :=
  (h.addCommission hid horder hamount hpending).settle hu now

theorem accrueAffiliateCommission_inv {orders : List PaymentOrder} {enabledUsers : List Nat} {orderNo : String}
    {now : Int} (hr : accrueAffiliateCommission w orders enabledUsers orderNo now = .ok w') :
    WalletInv w' ∧ StaysNonneg w w' := by
  have hsame : ∀ {w₁ : Affiliates}, WalletInv w₁ → w₁.ledger = w.ledger → Except.ok w₁ = (Except.ok w' : Except String _) →
      WalletInv w' ∧ StaysNonneg w w' := by
    rintro w₁ hw₁ hledger heq
    obtain rfl := Except.ok.inj heq
    exact ⟨hw₁, fun u hu => hledger ▸ hu⟩
  unfold accrueAffiliateCommission at hr
  split at hr
  · exact hsame h rfl hr
  · split at hr
    · exact hsame h rfl hr
    · rename_i order _
      split at hr
      · exact hsame h rfl hr
      · split at hr
        · exact hsame h rfl hr
        · rename_i referral _
          split at hr
          · exact hsame h rfl hr
          · obtain ⟨hlocked, haccount⟩ := h.lock referral.affiliateUserId now
            have hledger := (lockAccount_spec h.book referral.affiliateUserId now).2.2.2.2.1
            dsimp only at hr
            split at hr
            · exact hsame hlocked hledger hr
            · rename_i hnew
              split at hr
              · exact hsame hlocked hledger hr
              · split at hr
                · cases hr
                · rename_i amountCents hamount
                  split at hr
                  · exact hsame hlocked hledger hr
                  · obtain rfl := Except.ok.inj hr
                    have horder : ∀ c ∈ (lockAccount w referral.affiliateUserId now).2.commissions,
                        c.orderNo ≠ orderNo := by
                      intro c hc heq
                      exact hnew (.inr (List.any_eq_true.mpr ⟨c, hc, decide_eq_true heq⟩))
                    refine ⟨(hlocked.accrued rfl horder (commissionCents_nonneg hamount) rfl haccount now).inv,
                      fun u hu => ?_⟩
                    rw [← hledger] at hu
                    exact hu.trans
                      ((hlocked.accrued rfl horder (commissionCents_nonneg hamount) rfl haccount now).grows u)

theorem requestAffiliateWithdrawal_inv {input : WithdrawalInput} {now : Int} {id : Nat}
    (hr : requestAffiliateWithdrawal w u input now = .ok (id, w')) : WalletInv w' ∧ StaysNonneg w w' := by
  obtain ⟨hlocked, haccount⟩ := h.lock u now
  have hledger := (lockAccount_spec h.book u now).2.2.2.2.1
  unfold requestAffiliateWithdrawal at hr
  dsimp only at hr
  split at hr
  · obtain ⟨-, rfl⟩ := Prod.mk.inj (Except.ok.inj hr)
    exact ⟨hlocked, fun v hv => hledger ▸ hv⟩
  · rename_i hnone
    split at hr
    · cases hr
    · obtain ⟨hsettled, hgrows⟩ := @WalletInv.settled _ _ h u now rfl
      split at hr
      · cases hr
      · rename_i hminimum
        split at hr
        · cases hr
        · rename_i hcovered
          split at hr
          · cases hr
          · obtain ⟨-, rfl⟩ := Prod.mk.inj (Except.ok.inj hr)
            have hinv := hsettled.inv
            have hpositive : 0 < input.amountCents := by
              have hleast := affiliateConfig_minimum (settleLocked (lockAccount w u now).2 u now).config
              omega
            have hkey : ∀ y ∈ (settleLocked (lockAccount w u now).2 u now).withdrawals,
                ¬ (y.userId = u ∧ y.requestKey = input.requestKey) := by
              rw [hsettled.withdrawals]
              intro y hy hboth
              have hfound := List.find?_eq_none.mp hnone y hy
              simp [hboth.1, hboth.2] at hfound
            generalize settleLocked (lockAccount w u now).2 u now = w₁ at *
            have hbook : Book ({ w₁ with withdrawals := w₁.withdrawals ++ [⟨Rows.fresh (·.id) w₁.withdrawals, u,
              input.amountCents, input.method, input.account, input.payee, .pending, none, none, input.requestKey,
              now, none⟩] } : Affiliates).accounts w₁.ledger := hinv.book
            obtain ⟨r, hrow, hruser, htype, hamount, hreference, haccounts, hbook'⟩ :=
              ledger_spec hbook hsettled.account .withdrawal (-input.amountCents)
                (toString (Rows.fresh (·.id) w₁.withdrawals)) none none now
            refine ⟨⟨?_, ?_, ?_, ?_, fun v => ?_⟩, fun v hv => ?_⟩
            · rw [hrow]
              exact hbook'
            · rw [hrow]
              exact hinv.commissions.beside (fun id => .inl (by rw [htype]; decide))
            · rw [hrow]
              exact hinv.withdrawals.add rfl hkey hpositive rfl hreference htype hruser hamount
            · rw [hrow]
              dsimp only
              rw [transferKeys_concat, htype, if_neg (by decide), List.append_nil]
              exact hinv.transfers
            · rw [hrow]
              have hclosed := hinv.closed v
              unfold ledger
              dsimp only at hrow ⊢
              rw [walletSum_concat, transferSum_concat, hruser, htype, hamount, hclosed]
              unfold withdrawalSum
              rw [List.map_append, List.sum_append, List.map_singleton, List.sum_singleton]
              by_cases hv : u = v
              · simp [hv]
                ring
              · simp [hv]
            · rw [hrow]
              dsimp only
              have hbefore := hgrows v
              have havailable := hinv.book.availableCents_eq u
              rw [walletSum_concat, hruser, hamount]
              by_cases huv : u = v
              · subst huv
                rw [if_pos rfl]
                omega
              · rw [if_neg huv]
                omega

/-- A pending withdrawal is reviewed: what its row says and what is posted belong together. -/
theorem WalletInv.reviewed {x : Withdrawal} (hx : x ∈ w.withdrawals) (hpending : x.status = .pending)
    (hu : HasAccount w x.userId) (operatorUserId : Nat) (status : ReviewStatus) (note : String) (now : Int)
    {type : LedgerType} {amountCents : Int}
    (hposted : status = .rejected ∧ type = .withdrawalReturn ∧ amountCents = x.amountCents ∨
      status = .paid ∧ type = .payout ∧ amountCents = 0) :
    WalletInv (ledger { w with withdrawals := Rows.set (·.id) w.withdrawals x.id (fun r => { r with
      status         := status.toStatus
      note           := some note
      operatorUserId := some operatorUserId
      reviewedAt     := some now }) } x.userId type amountCents (toString x.id) (some operatorUserId) (some note) now) ∧
    StaysNonneg w (ledger { w with withdrawals := Rows.set (·.id) w.withdrawals x.id (fun r => { r with
      status         := status.toStatus
      note           := some note
      operatorUserId := some operatorUserId
      reviewedAt     := some now }) } x.userId type amountCents (toString x.id) (some operatorUserId) (some note) now) := by
  have hpositive := h.withdrawals.amounts x hx
  obtain ⟨hdebit, hreturn, hpayout⟩ : postings w.ledger .withdrawal (toString x.id) = [(x.userId, -x.amountCents)] ∧
      postings w.ledger .withdrawalReturn (toString x.id) = [] ∧ postings w.ledger .payout (toString x.id) = [] := by
    have hok := h.withdrawals.each x hx
    unfold WithdrawalOk at hok
    rw [hpending] at hok
    exact hok
  generalize hf : (fun r : Withdrawal => { r with
      status         := status.toStatus
      note           := some note
      operatorUserId := some operatorUserId
      reviewedAt     := some now }) = f
  have hfields : ∀ r, (f r).id = r.id ∧ (f r).userId = r.userId ∧ (f r).requestKey = r.requestKey ∧
      (f r).amountCents = r.amountCents := by
    subst hf
    exact fun r => ⟨rfl, rfl, rfl, rfl⟩
  have hstatus : (f x).status = status.toStatus := by
    subst hf
    rfl
  have hbook : Book ({ w with withdrawals := Rows.set (·.id) w.withdrawals x.id f } : Affiliates).accounts
      w.ledger := h.book
  obtain ⟨r, hrow, hruser, htype, hamount, hreference, -, hbook'⟩ :=
    ledger_spec hbook hu type amountCents (toString x.id) (some operatorUserId) (some note) now
  have hkinds : type ≠ .commission ∧ type ≠ .reversal ∧ type ≠ .transfer ∧ type ≠ .withdrawal := by
    rcases hposted with ⟨-, rfl, -⟩ | ⟨-, rfl, -⟩ <;> decide
  rw [← htype] at hkinds
  refine ⟨⟨?_, ?_, ?_, ?_, fun v => ?_⟩, fun v hv => ?_⟩
  · rw [hrow]
    exact hbook'
  · rw [hrow]
    exact h.commissions.beside (fun id => .inl ⟨hkinds.1, hkinds.2.1⟩)
  · rw [hrow]
    apply h.withdrawals.write hx hfields hreference
    unfold WithdrawalOk
    rw [(hfields x).1, (hfields x).2.1, (hfields x).2.2.2, hstatus,
      postings_other w.ledger (.inl hkinds.2.2.2), hdebit]
    refine ⟨rfl, ?_⟩
    rcases hposted with ⟨rfl, rfl, rfl⟩ | ⟨rfl, rfl, rfl⟩
    · rw [postings_own w.ledger htype hreference, postings_other w.ledger (.inl (by rw [htype]; decide)), hreturn,
        hpayout, hruser, hamount]
      exact ⟨rfl, rfl⟩
    · rw [postings_own w.ledger htype hreference, postings_other w.ledger (.inl (by rw [htype]; decide)), hreturn,
        hpayout, hruser, hamount]
      exact ⟨rfl, rfl⟩
  · rw [hrow]
    dsimp only
    rw [transferKeys_concat, if_neg hkinds.2.2.1, List.append_nil]
    exact h.transfers
  · rw [hrow]
    have hclosed := h.closed v
    have hsum := Rows.sum_set h.withdrawals.ids hx f
      (fun r => if r.userId = v ∧ (r.status = .pending ∨ r.status = .paid) then r.amountCents else 0)
    unfold ledger
    dsimp only
    rw [walletSum_concat, transferSum_concat, hruser, hamount, hclosed]
    unfold withdrawalSum
    have htransfer : ¬ (x.userId = v ∧ r.type = .transfer) := fun hboth => hkinds.2.2.1 hboth.2
    rw [hsum, hstatus, (hfields x).2.1, (hfields x).2.2.2, hpending, if_neg htransfer]
    rcases hposted with ⟨rfl, -, rfl⟩ | ⟨rfl, -, rfl⟩
    · by_cases hv : x.userId = v
      · simp [hv, ReviewStatus.toStatus]
        ring
      · simp [hv]
    · by_cases hv : x.userId = v
      · simp [hv, ReviewStatus.toStatus]
      · simp [hv]
  · rw [hrow]
    dsimp only
    rw [walletSum_concat, hamount]
    split
    · rcases hposted with ⟨-, -, rfl⟩ | ⟨-, -, rfl⟩ <;> omega
    · omega

theorem reviewAffiliateWithdrawal_inv {operatorUserId id : Nat} {status : ReviewStatus} {note : String} {now : Int}
    (hr : reviewAffiliateWithdrawal w operatorUserId id status note now = .ok w') :
    WalletInv w' ∧ StaysNonneg w w' := by
  unfold reviewAffiliateWithdrawal at hr
  split at hr
  · cases hr
  · rename_i x hfind
    obtain rfl : x.id = id := Rows.key_of_find hfind
    obtain ⟨hlocked, haccount⟩ := h.lock x.userId now
    obtain ⟨-, -, -, hwithdrawals, hledger, -, -⟩ := lockAccount_spec h.book x.userId now
    have hx : x ∈ (lockAccount w x.userId now).2.withdrawals := hwithdrawals ▸ Rows.mem_of_find hfind
    dsimp only at hr
    split at hr
    · cases hr
    · rename_i hpending
      rw [not_not] at hpending
      split at hr
      · cases hr
      · obtain rfl := Except.ok.inj hr
        have hback : ∀ {w₂ : Affiliates}, WalletInv w₂ ∧ StaysNonneg (lockAccount w x.userId now).2 w₂ →
            WalletInv w₂ ∧ StaysNonneg w w₂ :=
          fun hboth => ⟨hboth.1, fun v hv => hboth.2 v (hledger.symm ▸ hv)⟩
        cases status with
        | rejected =>
          exact hback (hlocked.reviewed hx hpending haccount operatorUserId .rejected note now (.inl ⟨rfl, rfl, rfl⟩))
        | paid =>
          exact hback (hlocked.reviewed hx hpending haccount operatorUserId .paid note now (.inr ⟨rfl, rfl, rfl⟩))

theorem WalletInv.post (hu : HasAccount w u) {type : LedgerType} {amountCents : Int} {reference : String}
    (op : Option Nat) (note : Option String) (now : Int)
    (hposted : (type = .accountUpdate ∨ type = .cancellation) ∧ amountCents = 0 ∨
      type = .transfer ∧ (u, reference) ∉ transferKeys w.ledger) :
    WalletInv (ledger w u type amountCents reference op note now) ∧
      ∀ v, walletSum v (ledger w u type amountCents reference op note now).ledger =
        walletSum v w.ledger + if u = v then amountCents else 0 := by
  obtain ⟨r, hrow, hruser, htype, hamount, hreference, -, hbook'⟩ :=
    ledger_spec h.book hu type amountCents reference op note now
  have hkinds : r.type ≠ .commission ∧ r.type ≠ .reversal ∧ r.type ≠ .withdrawal ∧ r.type ≠ .withdrawalReturn ∧
      r.type ≠ .payout := by
    rw [htype]
    rcases hposted with ⟨rfl | rfl, -⟩ | ⟨rfl, -⟩ <;> decide
  refine ⟨⟨?_, ?_, ?_, ?_, fun v => ?_⟩, fun v => ?_⟩
  · rw [hrow]
    exact hbook'
  · rw [hrow]
    exact h.commissions.beside (fun id => .inl ⟨hkinds.1, hkinds.2.1⟩)
  · rw [hrow]
    exact h.withdrawals.beside (fun id => .inl hkinds.2.2)
  · rw [hrow, transferKeys_concat, hruser, hreference]
    rcases hposted with ⟨hother, -⟩ | ⟨rfl, hnew⟩
    · rw [if_neg (by rw [htype]; rcases hother with rfl | rfl <;> decide), List.append_nil]
      exact h.transfers
    · rw [if_pos htype]
      refine List.nodup_append.mpr ⟨h.transfers, List.nodup_singleton _, ?_⟩
      rintro k hk _ hnew' rfl
      rw [List.mem_singleton.mp hnew'] at hk
      exact hnew hk
  · rw [hrow, walletSum_concat, transferSum_concat, hruser, hamount, htype, h.closed v]
    unfold ledger
    dsimp only
    rcases hposted with ⟨hother, rfl⟩ | ⟨rfl, -⟩
    · have hne : type ≠ .transfer := by rcases hother with rfl | rfl <;> decide
      simp [hne]
    · by_cases hv : u = v
      · simp [hv]
        ring
      · simp [hv]
  · rw [hrow, walletSum_concat, hruser, hamount]

theorem transferAffiliateBalance_inv {balances balances' : Accounts} {amountCents : Int} {requestKey : String}
    {now : Int} (hr : transferAffiliateBalance w balances u amountCents requestKey now = .ok (w', balances')) :
    WalletInv w' ∧ StaysNonneg w w' := by
  obtain ⟨hlocked, haccount⟩ := h.lock u now
  have hledger := (lockAccount_spec h.book u now).2.2.2.2.1
  unfold transferAffiliateBalance at hr
  dsimp only at hr
  split at hr
  · obtain ⟨rfl, -⟩ := Prod.mk.inj (Except.ok.inj hr)
    exact ⟨hlocked, fun v hv => hledger ▸ hv⟩
  · rename_i hnew
    split at hr
    · cases hr
    · split at hr
      · cases hr
      · obtain ⟨hsettled, hgrows⟩ := @WalletInv.settled _ _ h u now rfl
        split at hr
        · cases hr
        · rename_i hcovered
          cases hadd : addUserBalance balances u amountCents affiliateTransferMeta now with
          | error e =>
            rw [hadd] at hr
            cases hr
          | ok balances₁ =>
            rw [hadd] at hr
            obtain ⟨rfl, -⟩ := Prod.mk.inj (Except.ok.inj hr)
            have hkey : (u, requestKey) ∉ transferKeys (settleLocked (lockAccount w u now).2 u now).ledger := by
              rw [hsettled.transfers]
              intro hmem
              obtain ⟨r, hr, heq⟩ := List.mem_map.mp hmem
              obtain ⟨hruser, hreference⟩ := Prod.mk.inj heq
              obtain ⟨hr, htype⟩ := List.mem_filter.mp hr
              refine hnew (List.any_eq_true.mpr ⟨r, hr, ?_⟩)
              simp only [Bool.and_eq_true, decide_eq_true_eq]
              exact ⟨hruser, of_decide_eq_true htype, hreference⟩
            obtain ⟨hinv, hsum⟩ := hsettled.inv.post hsettled.account none none now (.inr ⟨rfl, hkey⟩)
            refine ⟨hinv, fun v hv => ?_⟩
            have hbefore := hgrows v
            have havailable := hsettled.inv.book.availableCents_eq u
            rw [hsum v]
            by_cases huv : u = v
            · subst huv
              rw [if_pos rfl]
              omega
            · rw [if_neg huv]
              omega

/-- An available commission is cancelled: its amount is taken back, even below zero. -/
theorem WalletInv.reversed (hc : c ∈ w.commissions) (hu : HasAccount w c.userId) {type : LedgerType} {amountCents : Int}
    (hposted : c.status = .available ∧ type = .reversal ∧ amountCents = -c.amountCents ∨
      c.status = .pending ∧ type = .cancellation ∧ amountCents = 0) (reason : String) (op : Option Nat)
    (note : Option String) (now : Int) : WalletInv { ledger w c.userId type amountCents (toString c.id) op note now with
      commissions := Rows.set (·.id) w.commissions c.id (fun c =>
        { c with status := .cancelled, reason := some reason }) } := by
  obtain ⟨r, hrow, hruser, htype, hamount, hreference, -, hbook'⟩ :=
    ledger_spec h.book hu type amountCents (toString c.id) op note now
  have hkinds : r.type ≠ .commission ∧ r.type ≠ .transfer ∧ r.type ≠ .withdrawal ∧ r.type ≠ .withdrawalReturn ∧
      r.type ≠ .payout := by
    rw [htype]
    rcases hposted with ⟨-, rfl, -⟩ | ⟨-, rfl, -⟩ <;> decide
  refine ⟨?_, ?_, ?_, ?_, fun v => ?_⟩
  · rw [hrow]
    exact hbook'
  · rw [hrow]
    refine h.commissions.write (f := fun c => { c with status := .cancelled, reason := some reason }) hc
      (fun _ => ⟨rfl, rfl, rfl⟩) hreference ?_
    have hok := h.commissions.each c hc
    unfold CommissionOk at *
    dsimp only
    rw [postings_other w.ledger (.inl hkinds.1)]
    rcases hposted with ⟨hstatus, rfl, rfl⟩ | ⟨hstatus, rfl, rfl⟩
    · rw [hstatus] at hok
      rw [postings_own w.ledger htype hreference, hok.1, hok.2, hruser, hamount]
      exact .inr ⟨rfl, rfl⟩
    · rw [hstatus] at hok
      rw [postings_other w.ledger (.inl (by rw [htype]; decide)), hok.1, hok.2]
      exact .inl ⟨rfl, rfl⟩
  · rw [hrow]
    exact h.withdrawals.beside (fun id => .inl hkinds.2.2)
  · rw [hrow, transferKeys_concat, if_neg hkinds.2.1, List.append_nil]
    exact h.transfers
  · have hclosed := h.closed v
    have hsum := Rows.sum_set h.commissions.ids hc (fun c => { c with status := .cancelled, reason := some reason })
      (fun c => if c.userId = v ∧ c.status = .available then c.amountCents else 0)
    rw [hrow]
    unfold ledger
    dsimp only
    rw [walletSum_concat, transferSum_concat, hruser, hamount, hclosed]
    unfold commissionSum
    have htransfer : ¬ (c.userId = v ∧ r.type = .transfer) := fun hboth => hkinds.2.1 hboth.2
    rw [hsum, if_neg htransfer]
    rcases hposted with ⟨hstatus, -, rfl⟩ | ⟨hstatus, -, rfl⟩
    · by_cases hv : c.userId = v
      · simp [hv, hstatus]
        ring
      · simp [hv]
    · by_cases hv : c.userId = v
      · simp [hv, hstatus]
      · simp [hv]

theorem cancelAffiliateCommission_inv {operatorUserId id : Nat} {reason : String} {now : Int}
    (hr : cancelAffiliateCommission w operatorUserId id reason now = .ok w') : WalletInv w' := by
  unfold cancelAffiliateCommission at hr
  split at hr
  · cases hr
  · rename_i c hfind
    obtain rfl : c.id = id := Rows.key_of_find hfind
    obtain ⟨hlocked, haccount⟩ := h.lock c.userId now
    have hc : c ∈ (lockAccount w c.userId now).2.commissions :=
      (lockAccount_spec h.book c.userId now).2.2.1 ▸ Rows.mem_of_find hfind
    dsimp only at hr
    split at hr
    · obtain rfl := Except.ok.inj hr
      exact hlocked
    · rename_i hstatus
      obtain rfl := Except.ok.inj hr
      exact hlocked.reversed hc haccount (.inl ⟨hstatus, rfl, rfl⟩) reason _ _ now
    · rename_i hstatus
      obtain rfl := Except.ok.inj hr
      exact hlocked.reversed hc haccount (.inr ⟨hstatus, rfl, rfl⟩) reason _ _ now

theorem updateAffiliateAccount_inv (operatorUserId u : Nat) (blocked : Bool) (rateBps : Option Int)
    (reference note : String) (now : Int) :
    WalletInv (updateAffiliateAccount w operatorUserId u blocked rateBps reference note now) ∧
      StaysNonneg w (updateAffiliateAccount w operatorUserId u blocked rateBps reference note now) := by
  obtain ⟨hlocked, haccount⟩ := h.lock u now
  have hledger := (lockAccount_spec h.book u now).2.2.2.2.1
  unfold updateAffiliateAccount
  dsimp only
  generalize lockAccount w u now = locked at *
  have hkeys : ∀ a : AffiliateAccount, AffiliateAccount.userId { a with blocked := blocked, rateBps := rateBps } =
      a.userId := fun _ => rfl
  have hset : WalletInv { locked.2 with accounts := Rows.set (·.userId) locked.2.accounts u (fun a =>
      { a with blocked := blocked, rateBps := rateBps }) } := by
    refine ⟨⟨?_, fun a ha => ?_, fun r hr => ?_, hlocked.book.running⟩, hlocked.commissions, hlocked.withdrawals,
      hlocked.transfers, hlocked.closed⟩
    · rw [Rows.keys_set hkeys]
      exact hlocked.book.ids
    · rcases Rows.mem_set.mp ha with ⟨a', ha', -, rfl⟩ | ⟨ha, -⟩
      · exact hlocked.book.available a' ha'
      · exact hlocked.book.available a ha
    · obtain ⟨a, ha, hau⟩ := hlocked.book.owned r hr
      by_cases hkey : a.userId = u
      · exact ⟨_, Rows.mem_set.mpr (.inl ⟨a, ha, hkey, rfl⟩), hau⟩
      · exact ⟨a, Rows.mem_set.mpr (.inr ⟨ha, hkey⟩), hau⟩
  have haccount' : HasAccount { locked.2 with accounts := Rows.set (·.userId) locked.2.accounts u (fun a =>
      { a with blocked := blocked, rateBps := rateBps }) } u := by
    obtain ⟨a, ha, hau⟩ := haccount
    exact ⟨_, Rows.mem_set.mpr (.inl ⟨a, ha, hau, rfl⟩), hau⟩
  obtain ⟨hinv, hsum⟩ := @WalletInv.post _ hset u haccount' .accountUpdate 0 reference (some operatorUserId)
    (some note) now (.inl ⟨.inl rfl, rfl⟩)
  refine ⟨hinv, fun v hv => ?_⟩
  rw [hsum v]
  dsimp only
  rw [hledger]
  split <;> omega

end

/-! ## Runs -/

theorem WalletInv.step {s s' : AffiliateState} {a : AffiliateAct} (h : WalletInv s.wallet)
    (hstep : s.step a = some s') :
    WalletInv s'.wallet ∧ ((∀ op id reason, a ≠ .cancel op id reason) → StaysNonneg s.wallet s'.wallet) := by
  have hkept : ∀ {w : Affiliates}, WalletInv w ∧ StaysNonneg s.wallet w →
      WalletInv w ∧ ((∀ op id reason, a ≠ .cancel op id reason) → StaysNonneg s.wallet w) :=
    fun hboth => ⟨hboth.1, fun _ => hboth.2⟩
  cases a with
  | tick elapsed =>
    obtain rfl := Option.some.inj hstep
    exact hkept ⟨h, fun _ hu => hu⟩
  | edit enabled config referrals balances orders enabledUsers =>
    obtain rfl := Option.some.inj hstep
    exact hkept ⟨⟨h.book, h.commissions, h.withdrawals, h.transfers, h.closed⟩, fun _ hu => hu⟩
  | accrue orderNo =>
    obtain ⟨w, hr, rfl⟩ := Option.map_eq_some_iff.mp hstep
    exact hkept (accrueAffiliateCommission_inv h (toOption_eq_some hr))
  | settle u =>
    obtain rfl := Option.some.inj hstep
    exact hkept (settleAffiliateCommissions_inv h u s.now)
  | withdraw u input =>
    obtain ⟨⟨id, w⟩, hr, rfl⟩ := Option.map_eq_some_iff.mp hstep
    exact hkept (requestAffiliateWithdrawal_inv h (toOption_eq_some hr))
  | review op id status note =>
    obtain ⟨w, hr, rfl⟩ := Option.map_eq_some_iff.mp hstep
    exact hkept (reviewAffiliateWithdrawal_inv h (toOption_eq_some hr))
  | transfer u amountCents requestKey =>
    obtain ⟨⟨w, balances⟩, hr, rfl⟩ := Option.map_eq_some_iff.mp hstep
    exact hkept (transferAffiliateBalance_inv h (toOption_eq_some hr))
  | cancel op id reason =>
    obtain ⟨w, hr, rfl⟩ := Option.map_eq_some_iff.mp hstep
    exact ⟨cancelAffiliateCommission_inv h (toOption_eq_some hr), fun hne => absurd rfl (hne op id reason)⟩
  | update op u blocked rateBps reference note =>
    obtain rfl := Option.some.inj hstep
    exact hkept (updateAffiliateAccount_inv h op u blocked rateBps reference note s.now)

theorem AffiliateState.Start.inv {s : AffiliateState} (h : s.Start) : WalletInv s.wallet := by
  obtain ⟨⟨enabled, config, referrals, accounts, commissions, withdrawals, rows⟩, balances, orders, users, now⟩ := s
  obtain ⟨rfl, rfl, rfl, rfl⟩ := h
  have hbook : Book [] [] := by
    refine ⟨List.nodup_nil, List.forall_mem_nil _, List.forall_mem_nil _, fun rs r rest hrest => ?_⟩
    exact absurd hrest.symm (List.append_ne_nil_of_right_ne_nil _ (List.cons_ne_nil _ _))
  have hcommissions : CommissionsOk [] [] :=
    ⟨List.nodup_nil, List.nodup_nil, List.forall_mem_nil _, List.forall_mem_nil _, fun _ _ => ⟨rfl, rfl⟩⟩
  have hwithdrawals : WithdrawalsOk [] [] :=
    ⟨List.nodup_nil, List.nodup_nil, List.forall_mem_nil _, List.forall_mem_nil _, fun _ _ => ⟨rfl, rfl, rfl⟩⟩
  exact ⟨hbook, hcommissions, hwithdrawals, List.nodup_nil, fun _ => rfl⟩

end ForwardX.Panel
