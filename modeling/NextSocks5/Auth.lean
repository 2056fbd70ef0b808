import NextSocks5.Net

set_option autoImplicit false

namespace NextSocks5

structure User where
  username : String
  password : String
deriving DecidableEq, Repr

-- Only the lengths are compared early.
def ctEq (a b : Bytes) : Bool :=
  if a.length ≠ b.length then false
  else ((a.zip b).foldl (fun (diff : UInt8) pair => diff ||| (pair.1 ^^^ pair.2)) 0) == 0

-- No short-circuit: `ok` is accumulated over all the users.
def verifyCredentials (users : List User) (username password : String) : Bool :=
  users.foldl (fun ok user =>
    let userMatch := ctEq (asBytes user.username) (asBytes username)
    let passMatch := ctEq (asBytes user.password) (asBytes password)
    ok || (userMatch && passMatch)) false

theorem byte_or_zero (a b : UInt8) : (a ||| b) = 0 ↔ a = 0 ∧ b = 0 := by
  simp only [← UInt8.toBitVec_inj, UInt8.toBitVec_or]
  exact BitVec.or_eq_zero_iff

theorem byte_xor_zero (a b : UInt8) : (a ^^^ b) = 0 ↔ a = b := by
  simp only [← UInt8.toBitVec_inj, UInt8.toBitVec_xor]
  exact BitVec.xor_eq_zero_iff

theorem diff_fold_zero (a b : Bytes) (sized : a.length = b.length) (start : UInt8) :
    (a.zip b).foldl (fun (diff : UInt8) pair => diff ||| (pair.1 ^^^ pair.2)) start = 0 ↔ start = 0 ∧ a = b := by
  induction a generalizing b start with
  | nil =>
      have empty : b = [] := List.length_eq_zero_iff.mp sized.symm
      simp [empty]
  | cons x rest ih =>
      cases b with
      | nil => simp at sized
      | cons y others =>
          have shorter : rest.length = others.length := by simpa using sized
          rw [List.zip_cons_cons, List.foldl_cons, ih others shorter, byte_or_zero, byte_xor_zero, List.cons.injEq, and_assoc]

theorem ct_eq_iff (a b : Bytes) : ctEq a b = true ↔ a = b := by
  by_cases sized : a.length = b.length
  · rw [ctEq, if_neg (not_not.mpr sized), beq_iff_eq, diff_fold_zero a b sized]
    simp
  · have different : a ≠ b := fun same => sized (congrArg List.length same)
    simp [ctEq, sized, different]

theorem verify_fold (users : List User) (username password : String) (start : Bool) :
    users.foldl (fun ok user => ok || (ctEq (asBytes user.username) (asBytes username) &&
      ctEq (asBytes user.password) (asBytes password))) start = true ↔
    start = true ∨ ∃ user ∈ users, user.username = username ∧ user.password = password := by
  induction users generalizing start with
  | nil => simp
  | cons head tail ih =>
      have headIff : (ctEq (asBytes head.username) (asBytes username) && ctEq (asBytes head.password) (asBytes password)) = true ↔
          head.username = username ∧ head.password = password := by
        rw [Bool.and_eq_true, ct_eq_iff, ct_eq_iff]
        exact and_congr ⟨as_bytes_injective _ _, congrArg asBytes⟩ ⟨as_bytes_injective _ _, congrArg asBytes⟩
      rw [List.foldl_cons, ih, Bool.or_eq_true, headIff]
      simp [or_assoc]

-- A login is one configured pair, never a mix of two.
theorem verify_credentials_iff (users : List User) (username password : String) :
    verifyCredentials users username password = true ↔
      ∃ user ∈ users, user.username = username ∧ user.password = password := by
  rw [verifyCredentials]
  simpa using verify_fold users username password false

end NextSocks5
