import SvpMcp.Model.Auth

/-!
# What a challenge text says

A nonce and a number of seconds have no colon, so a challenge is known from its end. The parser
reads from the front, and returns the fields where the chain id has no colon either.
-/

namespace SvpMcp

open Calendar

/-- An instant, cut off to its second. -/
def truncatedToSecond (t : Time) : Time := unixSeconds t * 1000000000

/-- It ends in a colon. -/
theorem challengePrefix_toList :
    challengePrefix.toList = "svpchain-mcp-auth-v1".toList ++ [':'] := by
  decide +kernel

section Text

variable (chainID nonce : String) (t : Time)

/-- The characters of a challenge. -/
theorem buildChallenge_toList : (buildChallenge chainID nonce t).toList =
    (challengePrefix.toList ++ chainID.toList ++ ':' :: nonce.toList) ++
      ':' :: Decimal.print (unixSeconds t) := by
  have colon : ":".toList = [':'] := by decide
  unfold buildChallenge challengePrefix
  simp only [String.toList_append, String.toList_ofList, colon, List.append_assoc,
    List.cons_append, List.nil_append]

/-- The characters of a challenge, split at the colons from the front. -/
theorem buildChallenge_parts : (buildChallenge chainID nonce t).toList =
    "svpchain-mcp-auth-v1".toList ++ ':' :: (chainID.toList ++
      ':' :: (nonce.toList ++ ':' :: Decimal.print (unixSeconds t))) := by
  rw [buildChallenge_toList, challengePrefix_toList]
  simp only [List.append_assoc, List.cons_append, List.nil_append]

end Text

/-- A number has no colon. -/
theorem colon_notMem_print (n : Int) : ':' ∉ Decimal.print n := by
  intro member
  rcases Decimal.mem_print member with isMinus | isDigit
  · exact absurd isMinus (by decide)
  · exact absurd isDigit (by decide)

section Fields

variable {chainID chainID' nonce nonce' : String} {t t' : Time}

/-- Equal texts have equal fields. -/
theorem buildChallenge_inj (plain : ':' ∉ nonce.toList) (plain' : ':' ∉ nonce'.toList)
    (same : buildChallenge chainID nonce t = buildChallenge chainID' nonce' t') :
    chainID = chainID' ∧ nonce = nonce' ∧ unixSeconds t = unixSeconds t' := by
  have chars := congrArg String.toList same
  rw [buildChallenge_toList, buildChallenge_toList] at chars
  -- The seconds stand behind the last colon, the nonce behind the last one before it.
  obtain ⟨fronts, seconds⟩ :=
    Strings.join_last_inj (colon_notMem_print _) (colon_notMem_print _) chars
  obtain ⟨heads, nonces⟩ := Strings.join_last_inj plain plain' fronts
  have chains := List.append_cancel_left heads
  exact ⟨String.toList_inj.mp chains, String.toList_inj.mp nonces, Decimal.print_inj seconds⟩

/-- A challenge without colons in its fields is parsed into them. -/
theorem parseChallenge_build (isChain : chainID ≠ "") (isNonce : nonce ≠ "")
    (chainPlain : ':' ∉ chainID.toList) (plain : ':' ∉ nonce.toList)
    (low : -2 ^ 63 ≤ unixSeconds t) (high : unixSeconds t < 2 ^ 63) :
    parseChallenge (buildChallenge chainID nonce t) =
      .ok ⟨chainID, nonce, truncatedToSecond t⟩ := by
  have starts : challengePrefix.toList.isPrefixOf (buildChallenge chainID nonce t).toList =
      true := by
    rw [buildChallenge_toList, List.isPrefixOf_iff_prefix, List.append_assoc, List.append_assoc]
    exact List.prefix_append _ _
  have versionPlain : ':' ∉ "svpchain-mcp-auth-v1".toList := by decide
  have parts : Strings.splitN ':' 4 (buildChallenge chainID nonce t).toList =
      ["svpchain-mcp-auth-v1".toList, chainID.toList, nonce.toList,
        Decimal.print (unixSeconds t)] := by
    rw [buildChallenge_parts, Strings.splitN_present versionPlain,
      Strings.splitN_present chainPlain, Strings.splitN_present plain]
    rfl
  have chainChars : chainID.toList ≠ [] := fun empty =>
    isChain (String.toList_inj.mp (empty.trans String.toList_empty.symm))
  have nonceChars : nonce.toList ≠ [] := fun empty =>
    isNonce (String.toList_inj.mp (empty.trans String.toList_empty.symm))
  unfold parseChallenge
  rw [starts, if_neg (by decide), parts]
  simp only [Decimal.readInt64_print low high, if_neg chainChars, if_neg nonceChars,
    String.ofList_toList, truncatedToSecond]

/-- A challenge identifies its fields, and the parser returns them. The seconds of an instant are a
64-bit number. -/
theorem challenge_identifies_fields (chainID nonce : String) (t : Time)
    (plain : ':' ∉ nonce.toList) :
    (∀ chainID' nonce' t', ':' ∉ nonce'.toList →
      buildChallenge chainID nonce t = buildChallenge chainID' nonce' t' →
      chainID = chainID' ∧ nonce = nonce' ∧ unixSeconds t = unixSeconds t') ∧
    (chainID ≠ "" → nonce ≠ "" → ':' ∉ chainID.toList → -2 ^ 63 ≤ unixSeconds t →
      unixSeconds t < 2 ^ 63 → parseChallenge (buildChallenge chainID nonce t) =
        .ok ⟨chainID, nonce, truncatedToSecond t⟩) :=
  ⟨fun _ _ _ plain' same => buildChallenge_inj plain plain' same,
    fun isChain isNonce chainPlain low high =>
      parseChallenge_build isChain isNonce chainPlain plain low high⟩

end Fields

/-- A challenge of an instant before the epoch, in the middle of a second. -/
theorem challenge_identifies_fields_early :
    parseChallenge (buildChallenge "svp-2517-1" "00ff" (-1500000000)) =
      .ok ⟨"svp-2517-1", "00ff", -2000000000⟩ ∧
    ∀ chainID' nonce' t', ':' ∉ nonce'.toList →
      buildChallenge "svp-2517-1" "00ff" (-1500000000) = buildChallenge chainID' nonce' t' →
      "svp-2517-1" = chainID' ∧ "00ff" = nonce' ∧ -2 = unixSeconds t' := by
  have fields := challenge_identifies_fields "svp-2517-1" "00ff" (-1500000000) (by decide)
  exact ⟨fields.2 (by decide) (by decide) (by decide) (by decide) (by decide), fields.1⟩

end SvpMcp
