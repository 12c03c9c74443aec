import HomeBanking.Isolation

/-!
# Indices into the account array

The server checks no id, so each of its array accesses is inside the array for
requests whose ids are; a header id outside is used by the first of them.
-/

namespace HomeBanking

namespace BankM

variable {ι α β : Type}

/-- The call never uses an index outside of the account array. -/
def InBounds (x : BankM ι α) : Prop := ∀ w id, x w ≠ .error (.outOfBounds id)

theorem InBounds.bind {x : BankM ι α} {f : α → BankM ι β} (hx : InBounds x)
    (hf : ∀ a, InBounds (f a)) : InBounds (x >>= f) := by
  intro w id h
  change ((x w).bind fun p => f p.1 p.2) = _ at h
  cases hr : x w with
  | error e =>
      rw [hr] at h
      cases h
      exact hx w id hr
  | ok p =>
      rw [hr] at h
      exact hf p.1 p.2 id h

theorem bind_of_ok {x : BankM ι α} {f : α → BankM ι β} {w w' : World ι} {a : α}
    (h : x w = .ok (a, w')) : (x >>= f) w = f a w' := by
  change ((x w).bind fun p => f p.1 p.2) = _
  rw [h]
  rfl

theorem bind_of_error {x : BankM ι α} {f : α → BankM ι β} {w : World ι} {e : Halt}
    (h : x w = .error e) : (x >>= f) w = .error e := by
  change ((x w).bind fun p => f p.1 p.2) = _
  rw [h]
  rfl

theorem InBounds.pure (a : α) : InBounds (pure a : BankM ι α) := fun _ _ h => nomatch h

theorem InBounds.ite {c : Prop} [Decidable c] {x y : BankM ι α} (hx : c → InBounds x)
    (hy : ¬ c → InBounds y) : InBounds (if c then x else y) := by
  split
  · exact hx ‹_›
  · exact hy ‹_›

theorem InBounds.modifyBank (f : Bank ι → Bank ι) : InBounds (modifyBank f) :=
  fun _ _ h => nomatch h

theorem InBounds.modifyReply (f : TlvReply → TlvReply) :
    InBounds (modifyReply f : BankM ι Unit) :=
  fun _ _ h => nomatch h

theorem InBounds.get : InBounds (get : BankM ι (World ι)) := fun _ _ h => nomatch h

theorem InBounds.activeOfficesLock (me : ι) : InBounds (activeOfficesLock me) := by
  intro w id h
  unfold HomeBanking.activeOfficesLock at h
  split at h <;> cases h

variable {id : UInt32} (hid : id < maxBankAccounts)
include hid

theorem InBounds.account : InBounds (account id : BankM ι BankAccount) := by
  intro w id' h
  unfold HomeBanking.account at h
  rw [if_pos hid] at h
  split at h <;> cases h

theorem InBounds.accountExists : InBounds (accountExists id : BankM ι Bool) := by
  have hentry : InBounds (entry id : BankM ι (Option BankAccount)) := by
    intro w id' h
    unfold entry at h
    rw [if_pos hid] at h
    cases h
  exact hentry.bind fun _ => .pure _

theorem InBounds.lock (me : ι) : InBounds (bankAccountLock me id) := by
  intro w id' h
  unfold bankAccountLock at h
  rw [if_pos hid] at h
  split at h <;> cases h

theorem InBounds.unlock : InBounds (bankAccountUnlock id : BankM ι Unit) := by
  intro w id' h
  unfold bankAccountUnlock at h
  rw [if_pos hid] at h
  cases h

end BankM

section Indices

open BankM

variable {ι : Type} {sha256sum : CString → CString} {me : ι} {salt : CString} {req : TlvRequest}

theorem opCreateAccount_inBounds (h : req.createId < maxBankAccounts) :
    InBounds (opCreateAccount sha256sum me salt req) := by
  have hvalidate : InBounds (validateCreateAccount req : BankM ι ℤ) := by
    refine .bind (.modifyReply _) fun _ => .ite (fun _ => .bind (.modifyReply _) fun _ => .pure _)
      fun _ => .bind (.accountExists h) fun _ => ?_
    exact .ite (fun _ => .bind (.modifyReply _) fun _ => .pure _) fun _ => .pure _
  refine .bind hvalidate fun _ => .ite (fun _ => .pure _) fun _ => .bind (.lock h me) fun _ => ?_
  refine .bind (.ite (fun _ => .modifyBank _) fun hout => absurd h hout) fun _ => ?_
  exact .bind (.unlock h) fun _ => .modifyReply _

theorem opBalance_inBounds (h : req.headerId < maxBankAccounts) :
    InBounds (opBalance me req) := by
  have hvalidate : InBounds (validateOPBalance req : BankM ι ℤ) :=
    .bind (.modifyReply _) fun _ => .ite (fun _ => .bind (.modifyReply _) fun _ => .pure _)
      fun _ => .pure _
  refine .bind hvalidate fun _ => .ite (fun _ => .pure _) fun _ => ?_
  refine .bind (.modifyReply _) fun _ => ?_
  refine .bind (.lock h me) fun _ => .bind (.bind (.account h) fun _ => .pure _) fun _ => ?_
  exact .bind (.modifyReply _) fun _ => .bind (.unlock h) fun _ => .modifyReply _

theorem transference_inBounds (h : req.headerId < maxBankAccounts)
    (h' : req.transferId < maxBankAccounts) : InBounds (transference me req) := by
  have hlock : InBounds (lockAccountsTranfer me req) :=
    .ite (fun _ => .bind (.lock h me) fun _ => .lock h' me)
      fun _ => .bind (.lock h' me) fun _ => .lock h me
  have hsubtract : InBounds (subtractBalance req : BankM ι ℤ) :=
    .bind (.account h) fun _ => .ite (fun _ => .pure _) fun _ =>
      .bind (.modifyBank _) fun _ => .pure _
  have hadd : InBounds (addBalance req : BankM ι ℤ) :=
    .bind (.account h') fun _ => .ite (fun _ => .pure _) fun _ =>
      .bind (.modifyBank _) fun _ => .pure _
  have hunlock : InBounds (unlockAccountsTranfer req : BankM ι Unit) :=
    .bind (.unlock h) fun _ => .unlock h'
  refine .bind hlock fun _ => .bind hsubtract fun _ =>
    .ite (fun _ => .bind (.modifyReply _) fun _ => .pure _) fun _ => ?_
  refine .bind hadd fun _ => .ite (fun _ => .bind (.modifyReply _) fun _ => .pure _) fun _ => ?_
  exact .bind hunlock fun _ => .pure _

theorem opTransfer_inBounds (h : req.headerId < maxBankAccounts)
    (h' : req.transferId < maxBankAccounts) : InBounds (opTransfer me req) := by
  have hvalidate : InBounds (validateOPTransfer req : BankM ι ℤ) := by
    refine .bind (.modifyReply _) fun _ => .ite (fun _ => .bind (.modifyReply _) fun _ => .pure _)
      fun _ => .bind (.accountExists h') fun _ => ?_
    refine .ite (fun _ => .bind (.modifyReply _) fun _ => .pure _) fun _ => ?_
    exact .ite (fun _ => .bind (.modifyReply _) fun _ => .pure _) fun _ => .pure _
  refine .bind (.modifyReply _) fun _ => .bind (.modifyReply _) fun _ =>
    .bind (.modifyReply _) fun _ => .bind hvalidate fun _ => .ite (fun _ => .pure _) fun _ => ?_
  refine .bind (transference_inBounds h h') fun _ => .ite (fun _ => ?_) fun _ => .pure _
  exact .bind (.account h) fun _ => .modifyReply _

theorem opShutDown_inBounds : InBounds (opShutDown req : BankM ι Unit) := by
  have hvalidate : InBounds (validateShutDown req : BankM ι ℤ) :=
    .bind (.modifyReply _) fun _ => .ite (fun _ => .bind (.modifyReply _) fun _ => .pure _)
      fun _ => .pure _
  refine .bind hvalidate fun _ => .ite (fun _ => .pure _) fun _ => ?_
  refine .bind (.modifyReply _) fun _ => ?_
  exact .bind (.modifyBank _) fun _ => .bind .get fun _ => .bind (.modifyReply _) fun _ =>
    .bind (.modifyReply _) fun _ => .modifyBank _

/-- With its ids inside the array, a request uses no index outside. -/
theorem processRequest_inBounds (h : req.InArray) :
    InBounds (processRequest sha256sum me salt req) := by
  have hlogin : InBounds (validateLogin sha256sum req : BankM ι Bool) :=
    .bind (.accountExists h.1) fun _ => .ite (fun _ => .pure _) fun _ =>
      .bind (.account h.1) fun _ => .pure _
  have hclient : InBounds (loginClient sha256sum req : BankM ι ℤ) :=
    .bind hlogin fun _ => .ite (fun _ => .bind (.modifyReply _) fun _ => .pure _) fun _ => .pure _
  have hoperation : InBounds (operation sha256sum me salt req) := by
    unfold operation
    cases ht : req.type with
    | createAccount => exact opCreateAccount_inBounds (h.2.1 ht)
    | balance => exact opBalance_inBounds h.1
    | transfer => exact opTransfer_inBounds h.1 (h.2.2 ht)
    | shutdown => exact opShutDown_inBounds
    | undefined => exact .pure _
  refine .bind (.activeOfficesLock me) fun _ => .bind (.modifyBank _) fun _ =>
    .bind (.modifyBank _) fun _ => .bind (.modifyReply _) fun _ => .bind hclient fun _ => ?_
  refine .ite (fun _ => .pure _) fun _ => .bind hoperation fun _ => ?_
  exact .bind (.activeOfficesLock me) fun _ => .bind (.modifyBank _) fun _ => .modifyBank _

/-- An id outside of the array is used by the first access. -/
theorem processRequest_outOfBounds (h : ¬ req.headerId < maxBankAccounts) {w : World ι}
    (hactive : w.bank.activeMutex = none) :
    processRequest sha256sum me salt req w = .error (.outOfBounds req.headerId) := by
  have hlock : activeOfficesLock me w = .ok ((), { w with bank.activeMutex := some me }) := by
    simp only [activeOfficesLock, hactive]
  have hlogin : ∀ w' : World ι, loginClient sha256sum req w' =
      .error (.outOfBounds req.headerId) := fun w' => by
    have hentry : entry req.headerId w' = .error (.outOfBounds req.headerId) := if_neg h
    exact bind_of_error (bind_of_error (bind_of_error hentry))
  rw [processRequest, bind_of_ok hlock]
  -- the increment, the unlock and the start of the reply
  refine (bind_of_ok rfl).trans ((bind_of_ok rfl).trans ((bind_of_ok rfl).trans ?_))
  exact bind_of_error (hlogin _)

end Indices

end HomeBanking
