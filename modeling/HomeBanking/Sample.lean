import HomeBanking.Bank

/-!
# A small bank

Concrete requests for executions that are followed to the end: the
administrator logs in with `foobar123`, account 1 with `secret_pass` and
account 2 with `bad_password`, and every salt drawn is 64 times the digit 0.
-/

namespace HomeBanking.Sample

def bytes (s : String) : CString := s.toList.map fun c => c.toNat.toUInt8

def adminPassword : CString := bytes "foobar123"
def password₁ : CString := bytes "secret_pass"
def password₂ : CString := bytes "bad_password"
def salt : CString := List.replicate saltLen 48

/-- The output of `sha256sum` on the inputs that occur. -/
def sha256sum (input : CString) : CString :=
  if input = adminPassword ++ salt then
    bytes "815ae0a08f3597ea03874ec4ac2274b9b6557a234f9f6168927f4535e735a151  -\n"
  else if input = password₁ ++ salt then
    bytes "9d41a565cc432af9f088cf798ca1585d6b5165ae094aab299f875e93b11ec629  -\n"
  else if input = password₂ ++ salt then
    bytes "594f645d8c6546f0b8e301c1649b6119177cd4fe7251416a59b8252f4c35edd5  -\n"
  else []

/-- A request of the administrator to create an account. -/
def create (pid id balance : UInt32) (password : CString) : TlvRequest :=
  ⟨.createAccount, 62, ⟨⟨pid, 0, adminPassword, 0⟩, ⟨id, balance, password⟩⟩⟩

/-- A transfer of account 1 to account 2. -/
def transfer (pid amount : UInt32) : TlvRequest :=
  ⟨.transfer, 41, ⟨⟨pid, 1, password₁, 0⟩, ⟨2, amount, []⟩⟩⟩

/-- A balance check of account 1. -/
def balance (pid : UInt32) : TlvRequest :=
  ⟨.balance, 33, ⟨⟨pid, 1, password₁, 0⟩, ⟨0, 0, []⟩⟩⟩

/-- A shutdown requested by the administrator. -/
def shutdown (pid : UInt32) : TlvRequest :=
  ⟨.shutdown, 33, ⟨⟨pid, 0, adminPassword, 0⟩, ⟨0, 0, []⟩⟩⟩

/-- The table after the start of the server. -/
def adminOnly : Table := adminTable sha256sum salt adminPassword

/-- The table after both accounts were created with the given balances. -/
def twoAccounts (balance₁ balance₂ : UInt32) : Table :=
  Function.update (Function.update adminOnly 1
    (some (newAccount sha256sum salt 1 balance₁ password₁))) 2
    (some (newAccount sha256sum salt 2 balance₂ password₂))

/-- Reply memory before the first request. -/
def emptyReply : TlvReply := ⟨.createAccount, 0, ⟨⟨0, .ok⟩, 0⟩⟩

end HomeBanking.Sample
