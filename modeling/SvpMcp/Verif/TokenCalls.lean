import SvpMcp.Model.NftTools
import SvpMcp.Verif.EvmMetering
import SvpMcp.Verif.HumanAmounts

/-!
# What the token tools ask of a token contract

The call data of the ERC-20 and ERC-721 tools, as the contract reads it. An amount is always a word;
a token id is only checked for its sign, and from 2²⁵⁶ on it is packed as its residue.
-/

namespace SvpMcp

open Handler Program

variable {text signature : String} {args : List Abi.Arg} {contract : Address} {amount : Int}
  {sel : Bytes} {id n : Nat}

/-- A call of a token contract. -/
inductive TokenCall where
  | transfer (recipient : Address) (amount : Nat)
  /-- Of an amount or of one token. -/
  | approve (spender : Address) (number : Nat)
  /-- Of an amount or of one token. -/
  | transferFrom (sender recipient : Address) (number : Nat)
  | safeTransferFrom (sender recipient : Address) (tokenID : Nat)
  | setApprovalForAll (operator : Address) (approved : Bool)
deriving DecidableEq

/-- The selector of `safeTransferFrom`. -/
def selSafeTransferFrom : Bytes := [0x42, 0x84, 0x2e, 0x0e]

/-- The selector of `setApprovalForAll`. -/
def selSetApprovalForAll : Bytes := [0xa2, 0x2c, 0xb4, 0x65]

/-- The selector of `approve`. -/
def selApprove : Bytes := [0x09, 0x5e, 0xa7, 0xb3]

/-- The selector of `safeTransferFrom`. -/
theorem selector_safeTransferFrom :
    Abi.selector "safeTransferFrom(address,address,uint256)" = selSafeTransferFrom := by
  decide +kernel

/-- The selector of `setApprovalForAll`. -/
theorem selector_setApprovalForAll :
    Abi.selector "setApprovalForAll(address,bool)" = selSetApprovalForAll := by
  decide +kernel

/-- The call a token contract reads, if it is one of these methods. -/
def readTokenCall (data : Bytes) : Option TokenCall :=
  if data.take 4 = selERC20Transfer then
    some (.transfer (Abi.addressAt data 0) (Abi.uintAt data 1))
  else if data.take 4 = selApprove then
    some (.approve (Abi.addressAt data 0) (Abi.uintAt data 1))
  else if data.take 4 = selERC20TransferFrom then
    some (.transferFrom (Abi.addressAt data 0) (Abi.addressAt data 1) (Abi.uintAt data 2))
  else if data.take 4 = selSafeTransferFrom then
    some (.safeTransferFrom (Abi.addressAt data 0) (Abi.addressAt data 1) (Abi.uintAt data 2))
  else if data.take 4 = selSetApprovalForAll then
    -- A word that is neither zero nor one is no flag.
    (Abi.unpackBool (Abi.wordAt data 1)).map (.setApprovalForAll (Abi.addressAt data 0))
  else none

namespace TokenCall

/-- The call data the tools pack for a call. -/
def data : TokenCall → Bytes
  | transfer recipient amount => packERC20Transfer recipient amount
  | approve spender number => packERC20Approve spender number
  | transferFrom sender recipient number => packERC20TransferFrom sender recipient number
  | safeTransferFrom sender recipient tokenID => packERC721SafeTransferFrom sender recipient tokenID
  | setApprovalForAll operator approved => packERC721SetApprovalForAll operator approved

/-- The amount or token id of a call. -/
def number : TokenCall → Option Nat
  | transfer _ amount => some amount
  | approve _ number => some number
  | transferFrom _ _ number => some number
  | safeTransferFrom _ _ tokenID => some tokenID
  | setApprovalForAll _ _ => none

/-- The call with its number reduced to a word. -/
def wrapped : TokenCall → TokenCall
  | transfer recipient amount => transfer recipient (amount % 2 ^ 256)
  | approve spender number => approve spender (number % 2 ^ 256)
  | transferFrom sender recipient number => transferFrom sender recipient (number % 2 ^ 256)
  | safeTransferFrom sender recipient tokenID =>
    safeTransferFrom sender recipient (tokenID % 2 ^ 256)
  | setApprovalForAll operator approved => setApprovalForAll operator approved

/-- The number of a call is a word. -/
def Fits (call : TokenCall) : Prop := ∀ n, call.number = some n → n < 2 ^ 256

/-- A call is as asked exactly when it fits. -/
theorem wrapped_eq_iff (call : TokenCall) : call.wrapped = call ↔ call.Fits := by
  cases call <;> simp [wrapped, Fits, number]

end TokenCall

/-- A number is read back as its residue. -/
theorem uintAt_wrapped {i n : Nat} (isSelector : Abi.selector signature = sel)
    (short : sel.length = 4) (place : args[i]? = some (.uint n)) :
    Abi.uintAt (Abi.pack signature args) i = n % 2 ^ 256 := by
  have read := Abi.uintAt_pack isSelector short place
  omega

/-- A flag is read back. -/
theorem unpackBool_flag {i : Nat} {flag : Bool} (isSelector : Abi.selector signature = sel)
    (short : sel.length = 4) (place : args[i]? = some (.uint (if flag then 1 else 0))) :
    Abi.unpackBool (Abi.wordAt (Abi.pack signature args) i) = some flag := by
  rw [Abi.wordAt_pack isSelector short place, Abi.Arg.head]
  cases flag with
  | false =>
    change Abi.unpackBool (Abi.word 0) = some false
    rw [Abi.unpackBool, Abi.unpackUint_word (by decide)]
    rfl
  | true =>
    change Abi.unpackBool (Abi.word 1) = some true
    rw [Abi.unpackBool, Abi.unpackUint_word (by decide)]
    rfl

/-- A contract reads the packed call, with its number reduced to a word. -/
theorem readTokenCall_data (call : TokenCall) : readTokenCall call.data = some call.wrapped := by
  cases call with
  | transfer recipient amount =>
    have method : (packERC20Transfer recipient amount).take 4 = selERC20Transfer :=
      Abi.take_pack selector_transfer rfl
    rw [TokenCall.data, readTokenCall, if_pos method, packERC20Transfer,
      Abi.addressAt_pack selector_transfer rfl rfl, uintAt_wrapped selector_transfer rfl rfl]
    rfl
  | approve spender number =>
    have method : (packERC20Approve spender number).take 4 = selApprove :=
      Abi.take_pack selector_approve rfl
    rw [TokenCall.data, readTokenCall, method, if_neg (by decide), if_pos rfl, packERC20Approve,
      Abi.addressAt_pack selector_approve rfl rfl, uintAt_wrapped selector_approve rfl rfl]
    rfl
  | transferFrom sender recipient number =>
    have method : (packERC20TransferFrom sender recipient number).take 4 = selERC20TransferFrom :=
      Abi.take_pack selector_transferFrom rfl
    rw [TokenCall.data, readTokenCall, method, if_neg (by decide), if_neg (by decide), if_pos rfl,
      packERC20TransferFrom, Abi.addressAt_pack selector_transferFrom rfl rfl,
      Abi.addressAt_pack selector_transferFrom rfl rfl,
      uintAt_wrapped selector_transferFrom rfl rfl]
    rfl
  | safeTransferFrom sender recipient tokenID =>
    have method : (packERC721SafeTransferFrom sender recipient tokenID).take 4 =
        selSafeTransferFrom := Abi.take_pack selector_safeTransferFrom rfl
    rw [TokenCall.data, readTokenCall, method, if_neg (by decide), if_neg (by decide),
      if_neg (by decide), if_pos rfl, packERC721SafeTransferFrom,
      Abi.addressAt_pack selector_safeTransferFrom rfl rfl,
      Abi.addressAt_pack selector_safeTransferFrom rfl rfl,
      uintAt_wrapped selector_safeTransferFrom rfl rfl]
    rfl
  | setApprovalForAll operator approved =>
    have method : (packERC721SetApprovalForAll operator approved).take 4 = selSetApprovalForAll :=
      Abi.take_pack selector_setApprovalForAll rfl
    rw [TokenCall.data, readTokenCall, method, if_neg (by decide), if_neg (by decide),
      if_neg (by decide), if_neg (by decide), if_pos rfl, packERC721SetApprovalForAll,
      Abi.addressAt_pack selector_setApprovalForAll rfl rfl,
      unpackBool_flag selector_setApprovalForAll rfl rfl]
    rfl

/-- The value of a decimal text that is read with its signs. -/
def LegacyDec.Reading.value (r : LegacyDec.Reading) : ℚ :=
  (if r.negative then -1 else 1) * (r.sign.factor * r.numeral.value)

/-- The base units a human amount denotes at some decimals. -/
def AmountDenotes (human : String) (decimals n : Nat) : Prop :=
  ∃ r : LegacyDec.Reading, human.toList = r.text ∧ (n : ℚ) = r.value * 10 ^ decimals

/-- The token id a text denotes, with blanks around it. -/
def IdDenotes (text : String) (n : Nat) : Prop :=
  Decimal.Denotes (Strings.trimSpace text.toList) n

/-- A token id is what is read. -/
theorem idDenotes_iff :
    IdDenotes text n ↔ Decimal.read (Strings.trimSpace text.toList) = some (n : Int) :=
  Decimal.denotes_iff

/-- A text denotes one id. -/
theorem idDenotes_unique {m n : Nat} (first : IdDenotes text m) (second : IdDenotes text n) :
    m = n := by
  have same := (idDenotes_iff.mp first).symm.trans (idDenotes_iff.mp second)
  have numbers : (m : Int) = n := Option.some.inj same
  omega

/-- A token id that is accepted is a natural number. -/
theorem parseTokenID_ok {v : Int} (parsed : parseTokenID text = .ok v) :
    ∃ n : Nat, v = n ∧ IdDenotes text n := by
  unfold parseTokenID at parsed
  by_cases blank : Strings.trimSpace text.toList = []
  · simp only [if_pos blank] at parsed
    cases parsed
  · simp only [if_neg blank] at parsed
    cases read : Decimal.read (Strings.trimSpace text.toList) with
    | none =>
      simp only [read] at parsed
      cases parsed
    | some found =>
      simp only [read] at parsed
      by_cases negative : found < 0
      · rw [if_pos negative] at parsed
        cases parsed
      · rw [if_neg negative] at parsed
        cases parsed
        obtain ⟨n, isNat⟩ := Int.eq_ofNat_of_zero_le (show 0 ≤ v by omega)
        exact ⟨n, isNat, idDenotes_iff.mpr (isNat ▸ read)⟩

/-- The value of a positive reading is that of its numeral. -/
theorem value_of_positive {r : LegacyDec.Reading} (positive : 0 < r.units) :
    r.value = r.numeral.value := by
  unfold LegacyDec.Reading.value
  rcases (positive_reading positive).2.2 with ⟨unsigned, factor⟩ | ⟨negative, minus⟩
  · rw [unsigned, factor]
    simp
  · rw [negative, minus]
    simp [Decimal.Sign.factor]

/-- An amount that is accepted is the number of base units it denotes, and a word. -/
theorem humanToBaseUnits_denotes {human : String} {decimals : Nat}
    (accepted : humanToBaseUnits human decimals = .ok amount) :
    ∃ n : Nat, amount = n ∧ AmountDenotes human decimals n ∧ n < 2 ^ 256 := by
  obtain ⟨positive, fits⟩ := humanToBaseUnits_bounds accepted
  obtain ⟨n, isNat⟩ := Int.eq_ofNat_of_zero_le (Int.le_of_lt positive)
  obtain ⟨r, isText, unitsPositive, _, _, _, units⟩ := humanToBaseUnits_ok_iff.mp accepted
  refine ⟨n, isNat, ⟨r, isText, ?_⟩, by omega⟩
  have value : r.numeral.value * 10 ^ 18 = r.magnitude := Numeral.value_eq r.places rfl
  have scaled : (r.magnitude : ℚ) * 10 ^ decimals = n * 10 ^ 18 := by
    rw [isNat] at units
    exact_mod_cast units
  have nonzero : (10 : ℚ) ^ 18 ≠ 0 := by positivity
  rw [value_of_positive unitsPositive]
  apply mul_right_cancel₀ nonzero
  rw [← scaled, ← value]
  ring

/-- The requests of the token tools. -/
inductive TokenRequest where
  | erc20Transfer (input : BuildERC20TransferInput)
  | erc20Approve (input : BuildERC20ApproveInput)
  | erc20TransferFrom (input : BuildERC20TransferFromInput)
  | erc721TransferFrom (input : BuildERC721TransferInput)
  | erc721SafeTransferFrom (input : BuildERC721TransferInput)
  | erc721Approve (input : BuildERC721ApproveInput)
  | erc721SetApprovalForAll (input : BuildERC721SetApprovalForAllInput)

namespace TokenRequest

/-- The tool of a request. -/
def build (deps : Deps) (evm : EvmDeps) (ctx : Context) :
    TokenRequest → Handler EVMTxPayload
  | erc20Transfer input => buildERC20Transfer deps ctx input
  | erc20Approve input => buildERC20Approve deps evm ctx input
  | erc20TransferFrom input => buildERC20TransferFrom deps ctx input
  | erc721TransferFrom input => buildERC721TransferFrom deps ctx input
  | erc721SafeTransferFrom input => buildERC721SafeTransferFrom deps ctx input
  | erc721Approve input => buildERC721Approve deps ctx input
  | erc721SetApprovalForAll input => buildERC721SetApprovalForAll deps ctx input

/-- The contract and the call a request asks for: the addresses it names, and the number its
amount or token id denotes. An amount is at the decimals the run saw the contract report. -/
def Asks (deps : Deps) (evm : EvmDeps) (events : Events) :
    TokenRequest → Address → TokenCall → Prop
  | erc20Transfer input, contract, .transfer recipient amount =>
    parseEVMAddress input.token "token" = .ok contract ∧
      parseEVMAddress input.recipient "to" = .ok recipient ∧
      ∃ dec, ReportedDecimals events homeClient contract dec ∧ AmountDenotes input.amount dec amount
  | erc20Approve input, contract, .approve spender amount =>
    parseEVMAddress input.token "token" = .ok contract ∧
      parseEVMAddress input.spender "spender" = .ok spender ∧
      ∃ client, evmAssemblerFor deps evm input.chainID = .ok client ∧
        if input.unlimited then amount = 2 ^ 256 - 1
        else ∃ dec, ReportedDecimals events client contract dec ∧
          AmountDenotes input.amount dec amount
  | erc20TransferFrom input, contract, .transferFrom sender recipient amount =>
    parseEVMAddress input.token "token" = .ok contract ∧
      parseEVMAddress input.sender "from" = .ok sender ∧
      parseEVMAddress input.recipient "to" = .ok recipient ∧
      ∃ dec, ReportedDecimals events homeClient contract dec ∧ AmountDenotes input.amount dec amount
  | erc721TransferFrom input, contract, .transferFrom sender recipient tokenID =>
    parseEVMAddress input.contract "contract" = .ok contract ∧
      parseEVMAddress input.sender "from" = .ok sender ∧
      parseEVMAddress input.recipient "to" = .ok recipient ∧ IdDenotes input.tokenID tokenID
  | erc721SafeTransferFrom input, contract, .safeTransferFrom sender recipient tokenID =>
    parseEVMAddress input.contract "contract" = .ok contract ∧
      parseEVMAddress input.sender "from" = .ok sender ∧
      parseEVMAddress input.recipient "to" = .ok recipient ∧ IdDenotes input.tokenID tokenID
  | erc721Approve input, contract, .approve spender tokenID =>
    parseEVMAddress input.contract "contract" = .ok contract ∧
      parseEVMAddress input.spender "spender" = .ok spender ∧ IdDenotes input.tokenID tokenID
  | erc721SetApprovalForAll input, contract, .setApprovalForAll operator approved =>
    parseEVMAddress input.contract "contract" = .ok contract ∧
      parseEVMAddress input.operator "operator" = .ok operator ∧ input.approved = approved
  | _, _, _ => False

/-- The token id of a request. -/
def tokenID : TokenRequest → Option String
  | erc721TransferFrom input => some input.tokenID
  | erc721SafeTransferFrom input => some input.tokenID
  | erc721Approve input => some input.tokenID
  | _ => none

/-- The token id of a request, if it has one, denotes a word. -/
def IdFits (request : TokenRequest) : Prop :=
  ∀ text, request.tokenID = some text → ∃ n, IdDenotes text n ∧ n < 2 ^ 256

end TokenRequest

section Tools

variable {deps : Deps} {evm : EvmDeps} {ctx : Context} {w w' : World}
  {events : Events} {p : EVMTxPayload}

/-- A transfer of a token by id calls its contract. -/
theorem buildERC721Transfer_calls {tool : String} {input : BuildERC721TransferInput}
    {pack : Address → Address → Int → Bytes}
    (run : Gives deps (· ∈ events) w (buildERC721Transfer deps ctx tool input pack) w' p) :
    ∃ (contract sender recipient : Address) (id : Nat),
      parseEVMAddress input.contract "contract" = .ok contract ∧
      parseEVMAddress input.sender "from" = .ok sender ∧
      parseEVMAddress input.recipient "to" = .ok recipient ∧ IdDenotes input.tokenID id ∧
      p.Calls contract 0 (pack sender recipient id) := by
  simp [buildERC721Transfer] at run
  obtain ⟨_, _, _, _, _, contract, isContract, sender, isSender, recipient, isRecipient, _, isID,
    run⟩ := run
  obtain ⟨id, rfl, denotes⟩ := parseTokenID_ok isID
  exact ⟨contract, sender, recipient, id, isContract, isSender, isRecipient, denotes,
    assembleERC_calls run⟩

/-- An approval of a token by id calls its contract. -/
theorem buildERC721Approve_calls {input : BuildERC721ApproveInput}
    (run : Gives deps (· ∈ events) w (buildERC721Approve deps ctx input) w' p) :
    ∃ (contract spender : Address) (id : Nat),
      parseEVMAddress input.contract "contract" = .ok contract ∧
      parseEVMAddress input.spender "spender" = .ok spender ∧ IdDenotes input.tokenID id ∧
      p.Calls contract 0 (packERC721Approve spender id) := by
  simp [buildERC721Approve] at run
  obtain ⟨_, _, _, _, _, contract, isContract, spender, isSpender, _, isID, run⟩ := run
  obtain ⟨id, rfl, denotes⟩ := parseTokenID_ok isID
  exact ⟨contract, spender, id, isContract, isSpender, denotes, assembleERC_calls run⟩

/-- An approval of all tokens calls their contract. -/
theorem buildERC721SetApprovalForAll_calls {input : BuildERC721SetApprovalForAllInput}
    (run : Gives deps (· ∈ events) w (buildERC721SetApprovalForAll deps ctx input) w' p) :
    ∃ contract operator, parseEVMAddress input.contract "contract" = .ok contract ∧
      parseEVMAddress input.operator "operator" = .ok operator ∧
      p.Calls contract 0 (packERC721SetApprovalForAll operator input.approved) := by
  simp [buildERC721SetApprovalForAll] at run
  obtain ⟨_, _, _, _, _, contract, isContract, operator, isOperator, run⟩ := run
  exact ⟨contract, operator, isContract, isOperator, assembleERC_calls run⟩

/-- An allowance asked for is a word. -/
theorem asksAllowance_denotes {client : EvmClient} {token : Address}
    {input : BuildERC20ApproveInput} (asks : AsksAllowance events client token input amount) :
    ∃ n : Nat, amount = n ∧ n < 2 ^ 256 ∧
      if input.unlimited then n = 2 ^ 256 - 1
      else ∃ dec, ReportedDecimals events client token dec ∧ AmountDenotes input.amount dec n := by
  unfold AsksAllowance at asks
  cases unlimited : input.unlimited with
  | true =>
    rw [unlimited, if_pos rfl] at asks
    exact ⟨2 ^ 256 - 1, asks, by decide, rfl⟩
  | false =>
    rw [unlimited, if_neg (by decide)] at asks
    obtain ⟨dec, reported, accepted⟩ := asks
    obtain ⟨n, isNat, denotes, fits⟩ := humanToBaseUnits_denotes accepted
    exact ⟨n, isNat, fits, dec, reported, denotes⟩

/-- A token id fits exactly when the call that is asked for does. -/
theorem idFits_iff {request : TokenRequest} {call : TokenCall}
    (hasID : request.tokenID = some text) (isNumber : call.number = some id)
    (denotes : IdDenotes text id) : request.IdFits ↔ call.Fits := by
  unfold TokenRequest.IdFits TokenCall.Fits
  rw [hasID, isNumber]
  constructor
  · intro fits n isID
    obtain ⟨m, denotes', bounded⟩ := fits text rfl
    have first := idDenotes_unique denotes denotes'
    have second : id = n := Option.some.inj isID
    omega
  · intro fits found isText
    have same : text = found := Option.some.inj isText
    exact ⟨id, same ▸ denotes, fits id rfl⟩

/-- A request without a token id asks for a call that fits, or that has no number. -/
theorem idFits_of_fits {request : TokenRequest} {call : TokenCall}
    (noID : request.tokenID = none) (fits : call.Fits) : request.IdFits ↔ call.Fits := by
  refine iff_of_true (fun text hasID => ?_) fits
  rw [noID] at hasID
  cases hasID

/-- A call whose number is a word fits. -/
theorem fits_of_number {call : TokenCall} (isNumber : call.number = some n)
    (bounded : n < 2 ^ 256) : call.Fits := by
  intro m same
  have numbers := Option.some.inj (isNumber.symm.trans same)
  omega

/-- A request that is accepted asks for one call, which its payload packs. -/
theorem tokenRequest_ok {request : TokenRequest}
    (run : Gives deps (· ∈ events) w (request.build deps evm ctx) w' p) :
    ∃ contract call, request.Asks deps evm events contract call ∧
      p.Calls contract 0 call.data ∧ (request.IdFits ↔ call.Fits) := by
  cases request with
  | erc20Transfer input =>
    obtain ⟨token, recipient, amount, dec, isToken, isRecipient, reported, accepted, calls⟩ :=
      buildERC20Transfer_calls run
    obtain ⟨n, rfl, denotes, bounded⟩ := humanToBaseUnits_denotes accepted
    exact ⟨token, .transfer recipient n, ⟨isToken, isRecipient, dec, reported, denotes⟩, calls,
      idFits_of_fits rfl (fits_of_number rfl bounded)⟩
  | erc20Approve input =>
    obtain ⟨client, token, spender, amount, isClient, isToken, isSpender, asks, calls⟩ :=
      buildERC20Approve_calls run
    obtain ⟨n, rfl, bounded, denotes⟩ := asksAllowance_denotes asks
    exact ⟨token, .approve spender n, ⟨isToken, isSpender, client, isClient, denotes⟩, calls,
      idFits_of_fits rfl (fits_of_number rfl bounded)⟩
  | erc20TransferFrom input =>
    obtain ⟨token, sender, recipient, amount, dec, isToken, isSender, isRecipient, reported,
      accepted, calls⟩ := buildERC20TransferFrom_calls run
    obtain ⟨n, rfl, denotes, bounded⟩ := humanToBaseUnits_denotes accepted
    exact ⟨token, .transferFrom sender recipient n,
      ⟨isToken, isSender, isRecipient, dec, reported, denotes⟩, calls,
      idFits_of_fits rfl (fits_of_number rfl bounded)⟩
  | erc721TransferFrom input =>
    obtain ⟨contract, sender, recipient, id, isContract, isSender, isRecipient, denotes, calls⟩ :=
      buildERC721Transfer_calls run
    exact ⟨contract, .transferFrom sender recipient id,
      ⟨isContract, isSender, isRecipient, denotes⟩, calls, idFits_iff rfl rfl denotes⟩
  | erc721SafeTransferFrom input =>
    obtain ⟨contract, sender, recipient, id, isContract, isSender, isRecipient, denotes, calls⟩ :=
      buildERC721Transfer_calls run
    exact ⟨contract, .safeTransferFrom sender recipient id,
      ⟨isContract, isSender, isRecipient, denotes⟩, calls, idFits_iff rfl rfl denotes⟩
  | erc721Approve input =>
    obtain ⟨contract, spender, id, isContract, isSpender, denotes, calls⟩ :=
      buildERC721Approve_calls run
    exact ⟨contract, .approve spender id, ⟨isContract, isSpender, denotes⟩, calls,
      idFits_iff rfl rfl denotes⟩
  | erc721SetApprovalForAll input =>
    obtain ⟨contract, operator, isContract, isOperator, calls⟩ :=
      buildERC721SetApprovalForAll_calls run
    exact ⟨contract, .setApprovalForAll operator input.approved, ⟨isContract, isOperator, rfl⟩,
      calls, idFits_of_fits rfl fun n noNumber => nomatch noNumber⟩

end Tools

/-- A payload makes a call of a contract, as the contract reads it. -/
def EVMTxPayload.Makes (p : EVMTxPayload) (contract : Address) (call : TokenCall) : Prop :=
  ∃ tx, p.unsignedTx = .ok tx ∧ tx.recipient = contract ∧ readTokenCall tx.data = some call

/-- A payload makes the call exactly when it fits. -/
theorem makes_iff_fits {p : EVMTxPayload} {call : TokenCall}
    (calls : p.Calls contract 0 call.data) : p.Makes contract call ↔ call.Fits := by
  obtain ⟨tx, isTx, isContract, _, isData⟩ := calls
  rw [← call.wrapped_eq_iff]
  constructor
  · rintro ⟨tx', isTx', _, read⟩
    cases isTx.symm.trans isTx'
    rw [isData, readTokenCall_data] at read
    exact Option.some.inj read
  · intro same
    exact ⟨tx, isTx, isContract, by rw [isData, readTokenCall_data, same]⟩

/-- Payloads with the same call data make the same call. -/
theorem makes_unique {p q : EVMTxPayload} {contract contract' : Address} {call call' : TokenCall}
    (first : p.Makes contract call) (second : q.Makes contract' call')
    (same : parseDataField p.data = parseDataField q.data) : call = call' := by
  obtain ⟨tx, isTx, _, read⟩ := first
  obtain ⟨tx', isTx', _, read'⟩ := second
  have data := (unsignedTx_ok isTx).data
  rw [same, (unsignedTx_ok isTx').data] at data
  rw [Except.ok.inj data, read] at read'
  exact Option.some.inj read'

/-- Two requests that are accepted ask for calls of the addresses and numbers they denote. Their
payloads make those calls, and differ in their call data if the numbers differ, exactly where
the token ids are words. -/
theorem token_calls_exact_iff {deps : Deps} {evm : EvmDeps} {ctx ctx' : Context}
    {w w' v v' : World} {events seen : Events}
    {first second : TokenRequest} {p q : EVMTxPayload}
    (run : Alone deps w (first.build deps evm ctx) events w' (.ok p))
    (other : Alone deps v (second.build deps evm ctx') seen v' (.ok q)) :
    ∃ contract call contract' call', first.Asks deps evm events contract call ∧
      second.Asks deps evm seen contract' call' ∧
      ((p.Makes contract call ∧ q.Makes contract' call' ∧
          (call.number ≠ call'.number → parseDataField p.data ≠ parseDataField q.data)) ↔
        first.IdFits ∧ second.IdFits) := by
  obtain ⟨contract, call, asks, calls, fits⟩ := tokenRequest_ok (alone_gives run)
  obtain ⟨contract', call', asks', calls', fits'⟩ := tokenRequest_ok (alone_gives other)
  refine ⟨contract, call, contract', call', asks, asks', ?_⟩
  rw [fits, fits', ← makes_iff_fits calls, ← makes_iff_fits calls']
  constructor
  · intro ⟨makes, makes', _⟩
    exact ⟨makes, makes'⟩
  · intro ⟨makes, makes'⟩
    refine ⟨makes, makes', fun different same => ?_⟩
    exact different (congrArg TokenCall.number (makes_unique makes makes' same))

/-- A transfer of a token to another owner. -/
def nftRequest (tokenID : String) : TokenRequest :=
  .erc721TransferFrom ⟨"0x0000000000000000000000000000000000000002",
    "0x0000000000000000000000000000000000000009", "0x0000000000000000000000000000000000000003",
    tokenID, "first"⟩

/-- The run of a transfer by id. -/
def nftRun (tokenID : String) :
    Events × World × Except Fault EVMTxPayload :=
  runAlone (server meterDeps) (fun _ => meterEnv) 0 meterWorld
    ((nftRequest tokenID).build meterDeps meterEvm ownerContext)

/-- The run has no other request in between. -/
theorem nftRun_alone {tokenID : String} {p : EVMTxPayload}
    (returned : (nftRun tokenID).2.2 = .ok p) :
    Alone meterDeps meterWorld
      ((nftRequest tokenID).build meterDeps meterEvm ownerContext)
      (nftRun tokenID).1 (nftRun tokenID).2.1 (.ok p) := by
  rw [← returned, nftRun]
  exact alone_runAlone meterDeps (fun _ => meterEnv) 0 meterWorld _

/-- The call such a transfer asks for has the number its token id denotes. -/
theorem nftRequest_number {tokenID : String} {events : Events}
    {call : TokenCall}
    (asks : (nftRequest tokenID).Asks meterDeps meterEvm events contract call)
    (denotes : IdDenotes tokenID id) : call.number = some id := by
  cases call with
  | transferFrom sender recipient number =>
    exact congrArg some (idDenotes_unique asks.2.2.2 denotes)
  | transfer _ _ => exact asks.elim
  | approve _ _ => exact asks.elim
  | safeTransferFrom _ _ _ => exact asks.elim
  | setApprovalForAll _ _ => exact asks.elim

/-- The tokens seven and eight are transferred by different call data. -/
theorem token_calls_exact_iff_seven_eight :
    ∃ p q, (nftRun "7").2.2 = .ok p ∧ (nftRun " 8").2.2 = .ok q ∧
      (∃ contract call, p.Makes contract call ∧ call.number = some 7) ∧
      (∃ contract call, q.Makes contract call ∧ call.number = some 8) ∧
      parseDataField p.data ≠ parseDataField q.data := by
  obtain ⟨p, returned⟩ := exists_of_isOk (show (nftRun "7").2.2.isOk = true by decide +kernel)
  obtain ⟨q, returned'⟩ := exists_of_isOk (show (nftRun " 8").2.2.isOk = true by decide +kernel)
  have seven : IdDenotes "7" 7 := idDenotes_iff.mpr (by decide)
  have eight : IdDenotes " 8" 8 := idDenotes_iff.mpr (by decide)
  obtain ⟨contract, call, contract', call', asks, asks', exact_iff⟩ :=
    token_calls_exact_iff (nftRun_alone returned) (nftRun_alone returned')
  have number := nftRequest_number asks seven
  have number' := nftRequest_number asks' eight
  have fits : (nftRequest "7").IdFits := fun text isID =>
    ⟨7, Option.some.inj isID ▸ seven, by decide⟩
  have fits' : (nftRequest " 8").IdFits := fun text isID =>
    ⟨8, Option.some.inj isID ▸ eight, by decide⟩
  obtain ⟨makes, makes', distinct⟩ := exact_iff.mpr ⟨fits, fits'⟩
  refine ⟨p, q, returned, returned', ⟨contract, call, makes, number⟩,
    ⟨contract', call', makes', number'⟩, distinct ?_⟩
  rw [number, number']
  decide

/-- The decimal text of 2²⁵⁶. -/
def hugeID : String :=
  "115792089237316195423570985008687907853269984665640564039457584007913129639936"

/-- The token 2²⁵⁶ is transferred by the call data of the token zero. -/
theorem huge_token_id_wraps :
    ∃ p q, (nftRun hugeID).2.2 = .ok p ∧ (nftRun "0").2.2 = .ok q ∧
      IdDenotes hugeID (2 ^ 256) ∧ IdDenotes "0" 0 ∧
      parseDataField p.data = parseDataField q.data := by
  have denotes : IdDenotes hugeID (2 ^ 256) := idDenotes_iff.mpr (by decide +kernel)
  have isZero : IdDenotes "0" 0 := idDenotes_iff.mpr (by decide)
  obtain ⟨p, returned⟩ := exists_of_isOk (show (nftRun hugeID).2.2.isOk = true by decide +kernel)
  obtain ⟨q, returned'⟩ := exists_of_isOk (show (nftRun "0").2.2.isOk = true by decide +kernel)
  refine ⟨p, q, returned, returned', denotes, isZero, ?_⟩
  obtain ⟨_, sender, recipient, id, _, isSender, isRecipient, isID, tx, isTx, _, _, isData⟩ :=
    buildERC721Transfer_calls (alone_gives (nftRun_alone returned))
  obtain ⟨_, sender', recipient', id', _, isSender', isRecipient', isID', tx', isTx', _, _,
    isData'⟩ := buildERC721Transfer_calls (alone_gives (nftRun_alone returned'))
  cases isSender.symm.trans isSender'
  cases isRecipient.symm.trans isRecipient'
  cases idDenotes_unique isID denotes
  cases idDenotes_unique isID' isZero
  rw [(unsignedTx_ok isTx).data, (unsignedTx_ok isTx').data, isData, isData']
  rfl

end SvpMcp
