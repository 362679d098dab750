import KaspaPortal.Contract.Script.Elements
import KaspaPortal.Engine.Machine

/-!
# Rules for the script machine

Two kinds of rules. The assembly rules read the bytes a builder wrote back as
tokens, so that a script's bytes can be replaced by a structured program. The
evaluation rules say, opcode by opcode, what a successful evaluation means:
what the stack held, what was checked and where the rest continues. They are
all equivalences, so nothing a script can do is lost by reading it this way.

Completeness of a program is not a rule here. It is proved where a witness is
put together, with the same equivalences read from right to left.
-/
namespace KaspaPortal.Engine
open Lib Primitives Transaction Contract.Script

/-! ## Assembly -/

/-- The tokens are the elements, each read as an instruction or a branch. -/
theorem tokenizeFuel_eq (fuel : Nat) (script : Bytes) :
    tokenizeFuel fuel script = (elementsFuel fuel script).map (List.map ofElement) := by
  induction fuel generalizing script with
  | zero => cases script <;> rfl
  | succ fuel ih =>
    cases script with
    | nil => rfl
    | cons b rest =>
      rw [tokenizeFuel, elementsFuel, Option.map_bind]
      apply Option.bind_congr
      rintro ⟨e, next⟩ _
      dsimp only [Function.comp_apply]
      rw [ih, Option.map_map, Option.map_map]
      rfl

/-- Fuel of the script's length is always enough: a token takes at least one byte. -/
theorem tokenizeFuel_enough (fuel : Nat) (script : Bytes) (h : script.length ≤ fuel) :
    tokenizeFuel fuel script = tokenize script := by
  rw [tokenize, tokenizeFuel_eq, tokenizeFuel_eq, elementsFuel_enough fuel script h]
  rfl

@[simp] theorem tokenize_nil : tokenize [] = some [] := rfl

/-- Reading one element peels its bytes off the front. -/
theorem tokenize_element (enc rest : Bytes) (e : Element) (hne : enc ≠ [])
    (h : readElement (enc ++ rest) 0 = some (e, enc.length)) :
    tokenize (enc ++ rest) = (tokenize rest).map (ofElement e :: ·) := by
  obtain ⟨b, bs, rfl⟩ := List.exists_cons_of_ne_nil hne
  rw [List.cons_append] at h ⊢
  rw [tokenize, List.length_cons, tokenizeFuel, h]
  simp only [Option.bind_some]
  rw [← List.cons_append, List.drop_left, tokenizeFuel_enough _ _ (by simp)]

/-- An opcode above the pushes is one token, whatever follows it. -/
theorem tokenize_opcode (op : UInt8) (rest : Bytes) (h : OP_16 < op) :
    tokenize (op :: rest) = (tokenize rest).map (ofOpcode op :: ·) := by
  have hn : 0x60 < op.toNat := UInt8.lt_iff_toNat_lt.mp h
  have h4e : 0x4e < op := UInt8.lt_iff_toNat_lt.mpr (by simp; omega)
  have hp : pushed ⟨op, []⟩ = none := by
    have h1 : ¬ op ≤ OP_PUSHDATA4 := UInt8.not_le.mpr h4e
    have h2 : ¬ op ≤ OP_16 := UInt8.not_le.mpr h
    simp [pushed, h1, h2]
  have := tokenize_element [op] rest ⟨op, []⟩ (by simp) (readElement_opcode op rest (Or.inr h4e))
  simpa [ofElement, hp] using this

/-- The form the assembly proofs rewrite with: the token an opcode stands for is given. -/
theorem tokenize_op {op : UInt8} {token : Token Instr} (rest : Bytes)
    (h : OP_16 < op ∧ ofOpcode op = token) :
    tokenize (op :: rest) = (tokenize rest).map (token :: ·) := by
  rw [tokenize_opcode op rest h.1, h.2]

/-- The opcode bytes of the builders, as the machine reads them. -/
@[simp] theorem tokenize_table (rest : Bytes) :
    tokenize (OP_IF :: rest) = (tokenize rest).map (.opIf :: ·) ∧
    tokenize (OP_ELSE :: rest) = (tokenize rest).map (.opElse :: ·) ∧
    tokenize (OP_ENDIF :: rest) = (tokenize rest).map (.opEndIf :: ·) ∧
    tokenize (OP_VERIFY :: rest) = (tokenize rest).map (.instr .verify :: ·) ∧
    tokenize (OP_DROP :: rest) = (tokenize rest).map (.instr .drop :: ·) ∧
    tokenize (OP_DUP :: rest) = (tokenize rest).map (.instr .dup :: ·) ∧
    tokenize (OP_PICK :: rest) = (tokenize rest).map (.instr .pick :: ·) ∧
    tokenize (OP_SWAP :: rest) = (tokenize rest).map (.instr .swap :: ·) ∧
    tokenize (OP_CAT :: rest) = (tokenize rest).map (.instr .cat :: ·) ∧
    tokenize (OP_SUBSTR :: rest) = (tokenize rest).map (.instr .substr :: ·) ∧
    tokenize (OP_EQUAL :: rest) = (tokenize rest).map (.instr .equal :: ·) ∧
    tokenize (OP_EQUALVERIFY :: rest) = (tokenize rest).map (.instr .equalVerify :: ·) ∧
    tokenize (OP_ADD :: rest) = (tokenize rest).map (.instr .add :: ·) ∧
    tokenize (OP_SUB :: rest) = (tokenize rest).map (.instr .sub :: ·) ∧
    tokenize (OP_NUMEQUALVERIFY :: rest) = (tokenize rest).map (.instr .numEqualVerify :: ·) ∧
    tokenize (OP_LESSTHANOREQUAL :: rest) = (tokenize rest).map (.instr .lessThanOrEqual :: ·) ∧
    tokenize (OP_GREATERTHANOREQUAL :: rest) = (tokenize rest).map (.instr .greaterThanOrEqual :: ·) ∧
    tokenize (OP_WITHIN :: rest) = (tokenize rest).map (.instr .within :: ·) ∧
    tokenize (OP_ZK_PRECOMPILE :: rest) = (tokenize rest).map (.instr .zkPrecompile :: ·) ∧
    tokenize (OP_SHA256 :: rest) = (tokenize rest).map (.instr .sha256 :: ·) ∧
    tokenize (OP_BLAKE2B :: rest) = (tokenize rest).map (.instr .blake2b :: ·) ∧
    tokenize (OP_CHECKSIG :: rest) = (tokenize rest).map (.instr .checkSig :: ·) ∧
    tokenize (OP_CHECKSIGVERIFY :: rest) = (tokenize rest).map (.instr .checkSigVerify :: ·) ∧
    tokenize (OP_CHECKLOCKTIMEVERIFY :: rest) = (tokenize rest).map (.instr .checkLockTimeVerify :: ·) ∧
    tokenize (OP_CHECKSEQUENCEVERIFY :: rest) = (tokenize rest).map (.instr .checkSequenceVerify :: ·) ∧
    tokenize (OP_TX_INPUT_COUNT :: rest) = (tokenize rest).map (.instr .txInputCount :: ·) ∧
    tokenize (OP_TX_OUTPUT_COUNT :: rest) = (tokenize rest).map (.instr .txOutputCount :: ·) ∧
    tokenize (OP_TX_INPUT_INDEX :: rest) = (tokenize rest).map (.instr .txInputIndex :: ·) ∧
    tokenize (OP_TX_INPUT_SCRIPT_SIG_SUBSTR :: rest) = (tokenize rest).map (.instr .txInputScriptSigSubstr :: ·) ∧
    tokenize (OP_TX_INPUT_SCRIPT_SIG_LEN :: rest) = (tokenize rest).map (.instr .txInputScriptSigLen :: ·) ∧
    tokenize (OP_TX_INPUT_AMOUNT :: rest) = (tokenize rest).map (.instr .txInputAmount :: ·) ∧
    tokenize (OP_TX_INPUT_SPK :: rest) = (tokenize rest).map (.instr .txInputSpk :: ·) ∧
    tokenize (OP_TX_OUTPUT_AMOUNT :: rest) = (tokenize rest).map (.instr .txOutputAmount :: ·) ∧
    tokenize (OP_TX_OUTPUT_SPK :: rest) = (tokenize rest).map (.instr .txOutputSpk :: ·) ∧
    tokenize (OP_INPUT_COVENANT_ID :: rest) = (tokenize rest).map (.instr .inputCovenantId :: ·) ∧
    tokenize (OP_COV_INPUT_COUNT :: rest) = (tokenize rest).map (.instr .covInputCount :: ·) ∧
    tokenize (OP_COV_OUTPUT_COUNT :: rest) = (tokenize rest).map (.instr .covOutputCount :: ·) ∧
    tokenize (OP_COV_OUTPUT_IDX :: rest) = (tokenize rest).map (.instr .covOutputIdx :: ·) := by
  repeat' apply And.intro
  all_goals exact tokenize_op rest (by decide)

/-- Whatever way a push was written, it reads back as the push of its data. -/
theorem tokenize_pushes {enc data : Bytes} (h : PushesAs enc data) (rest : Bytes) :
    tokenize (enc ++ rest) = (tokenize rest).map (.instr (.push data) :: ·) := by
  obtain ⟨e, hr, hp⟩ := h.reads rest
  have := tokenize_element enc rest e h.nonempty hr
  simpa [ofElement, hp] using this

/-- Integers are pushed in their shortest script form. -/
@[simp] theorem tokenize_pushInt (v : UInt64) (rest : Bytes) :
    tokenize (pushInt v ++ rest) =
      (tokenize rest).map (.instr (.push (encodeNum v.toNat)) :: ·) :=
  tokenize_pushes (pushInt_pushes v) rest

@[simp] theorem tokenize_pushPubkey (key : FixedBytes 32) (rest : Bytes) :
    tokenize (pushPubkey key ++ rest) = (tokenize rest).map (.instr (.push key.val) :: ·) :=
  tokenize_pushes (pushPubkey_pushes key) rest

/-- Data the builder can push reads back as itself. Longer data than a four-byte length can name
is the only data it cannot. -/
@[simp] theorem tokenize_pushData (data rest : Bytes) (h : Pushable data) :
    tokenize (pushData data ++ rest) = (tokenize rest).map (.instr (.push data) :: ·) :=
  tokenize_pushes (pushData_pushes data h) rest

@[simp] theorem pushable_fixed {n : Nat} (data : FixedBytes n) (h : n < 2 ^ 32) :
    Pushable data.val :=
  pushable_of_le data.property.le h

/-- The eight-byte salt most builders push behind its own length octet. -/
@[simp] theorem tokenize_salt (salt : FixedBytes 8) (rest : Bytes) :
    tokenize (0x08 :: (salt.val ++ rest)) = (tokenize rest).map (.instr (.push salt.val) :: ·) := by
  have h : pushData salt.val = 0x08 :: salt.val := by simp [pushData, salt.property]
  have := tokenize_pushData salt.val rest (pushable_fixed salt (by decide))
  rwa [h] at this

/-- `OP_1` through `OP_16` push their own number. -/
@[simp] theorem tokenize_one (rest : Bytes) :
    tokenize (OP_1 :: rest) = (tokenize rest).map (.instr (.push [1]) :: ·) :=
  tokenize_element [OP_1] rest ⟨OP_1, []⟩ (by simp) (readElement_opcode OP_1 rest (Or.inr (by decide)))

/-- The empty push stands for zero and for false. -/
@[simp] theorem tokenize_zero (rest : Bytes) :
    tokenize (OP_0 :: rest) = (tokenize rest).map (.instr (.push []) :: ·) :=
  tokenize_element [OP_0] rest ⟨OP_0, []⟩ (by simp) (readElement_opcode OP_0 rest (Or.inl rfl))

/-! ## Signature scripts made of pushes -/

/-- Pushes one after the other, and the items they push. -/
inductive PushesAll : Bytes → Stack → Prop
  | nil : PushesAll [] []
  | cons {enc data rest : Bytes} {items : Stack} (h : PushesAs enc data)
    (hrest : PushesAll rest items) : PushesAll (enc ++ rest) (data :: items)

/-- Two runs of pushes one after the other. -/
theorem PushesAll.append {script script' : Bytes} {items items' : Stack}
    (h : PushesAll script items) (h' : PushesAll script' items') :
    PushesAll (script ++ script') (items ++ items') := by
  induction h with
  | nil => exact h'
  | cons h hrest ih =>
    rw [List.append_assoc]
    exact .cons h ih

theorem PushesAll.single {enc data : Bytes} (h : PushesAs enc data) : PushesAll enc [data] := by
  have hall := PushesAll.cons h .nil
  rwa [List.append_nil] at hall

/-- A script of pushes leaves its items, the last one on top. -/
theorem sigStack_of_pushesAll {script : Bytes} {items : Stack} (h : PushesAll script items) :
    sigStack script = some items.reverse := by
  have htokens : ∃ program, tokenize script = some program ∧ program.mapM pushOnly = some items := by
    induction h with
    | nil => exact ⟨[], tokenize_nil, rfl⟩
    | cons h hrest ih =>
      obtain ⟨program, hprogram, hitems⟩ := ih
      refine ⟨_, by rw [tokenize_pushes h, hprogram]; rfl, ?_⟩
      rw [List.mapM_cons, hitems]
      rfl
  obtain ⟨program, hprogram, hitems⟩ := htokens
  rw [sigStack, hprogram, Option.bind_some, hitems]
  rfl

theorem pushesAs_zero : PushesAs [OP_0] [] := pushData_pushes [] (by decide)

theorem pushesAs_one : PushesAs [OP_1] [1] :=
  ⟨by simp, fun rest =>
    ⟨⟨OP_1, []⟩, readElement_opcode OP_1 rest (Or.inr (by decide)), by decide⟩⟩

/-! ## The last push of a signature script -/

/-- No opcode outside the pushes reads as a push. -/
theorem ofOpcode_ne_push (opcode : UInt8) (d : Bytes) : ofOpcode opcode ≠ .instr (.push d) := by
  have h : ∀ n : Fin 256, pushOnly (ofOpcode (UInt8.ofNat n.val)) = none := by decide +kernel
  intro hc
  have hn := h ⟨opcode.toNat, opcode.toNat_lt⟩
  rw [UInt8.ofNat_toNat, hc] at hn
  cases hn

/-- An element read as a push carries the pushed data. -/
theorem pushed_of_ofElement {e : Element} {d : Bytes} (h : ofElement e = .instr (.push d)) :
    pushed e = some d := by
  unfold ofElement at h
  split at h
  · rename_i data hp
    rw [hp]
    injection h with h
    injection h with h
    rw [h]
  · exact absurd h (ofOpcode_ne_push _ _)

/-- Whatever the form of the last push, a script ends with the item it pushes;
only the small-integer opcodes push an item their bytes do not hold. -/
theorem tokenizeFuel_ends {d : Bytes} (hd : 2 ≤ d.length) (fuel : Nat) (script : Bytes)
    (tokens : List (Token Instr))
    (h : tokenizeFuel fuel script = some (tokens ++ [.instr (.push d)])) :
    ∃ front, script = front ++ d := by
  induction fuel generalizing script tokens with
  | zero =>
    cases script with
    | nil => simp [tokenizeFuel] at h
    | cons b rest => simp [tokenizeFuel] at h
  | succ fuel ih =>
    cases script with
    | nil => simp [tokenizeFuel] at h
    | cons b rest =>
      simp only [tokenizeFuel, Option.bind_eq_some_iff, Option.map_eq_some_iff, Prod.exists] at h
      obtain ⟨e, next, hr, rest', hrest, heq⟩ := h
      cases tokens with
      | nil =>
        obtain ⟨hpush, rfl⟩ := List.cons.inj heq
        have hend : (b :: rest).drop next = [] := by
          cases hcase : (b :: rest).drop next with
          | nil => rfl
          | cons c cs =>
            rw [hcase] at hrest
            cases fuel with
            | zero => simp [tokenizeFuel] at hrest
            | succ fuel =>
              simp only [tokenizeFuel, Option.bind_eq_some_iff, Option.map_eq_some_iff] at hrest
              obtain ⟨_, _, _, _, hc⟩ := hrest
              cases hc
        have hp := pushed_of_ofElement hpush
        obtain ⟨header, hdata⟩ := readElement_data hr
        have htake : (b :: rest).take next = b :: rest := by
          have := List.take_append_drop next (b :: rest)
          rwa [hend, List.append_nil] at this
        unfold pushed at hp
        split at hp
        · obtain rfl := Option.some.inj hp
          exact ⟨header, by rw [← hdata, htake]⟩
        · split at hp
          · obtain rfl := Option.some.inj hp
            simp at hd
          · cases hp
      | cons t tokens =>
        obtain ⟨-, rfl⟩ := List.cons.inj heq
        obtain ⟨front, hfront⟩ := ih _ _ hrest
        refine ⟨(b :: rest).take next ++ front, ?_⟩
        rw [List.append_assoc, ← hfront, List.take_append_drop]

/-- The top item of a signature script's stack is what the script ends with, once it is too long
to be written as a small integer. -/
theorem sigStack_ends {sigScript d : Bytes} {w : Stack} (h : sigStack sigScript = some (d :: w))
    (hd : 2 ≤ d.length) : ∃ front, sigScript = front ++ d := by
  simp only [sigStack, Option.bind_eq_some_iff, Option.map_eq_some_iff] at h
  obtain ⟨tokens, htok, items, hitems, hrev⟩ := h
  obtain rfl : items = w.reverse ++ [d] := by
    rw [← List.reverse_reverse items, hrev, List.reverse_cons]
  obtain ⟨tokens', t, rfl⟩ : ∃ tokens' t, tokens = tokens' ++ [t] := by
    cases tokens using List.reverseRecOn with
    | nil => simp at hitems
    | append_singleton tokens' t _ => exact ⟨tokens', t, rfl⟩
  rw [List.mapM_append] at hitems
  simp only [bind, Option.bind_eq_some_iff] at hitems
  obtain ⟨xs, -, ys, hys, heq⟩ := hitems
  have ht : t = .instr (.push d) := by
    cases hp : pushOnly t with
    | none => simp [hp] at hys
    | some y =>
      obtain rfl : [y] = ys := by simpa [hp] using hys
      have hy : y = d := (List.append_inj_right' (Option.some.inj heq) rfl |> List.cons.inj).1
      unfold pushOnly at hp
      split at hp
      · rw [← hy, Option.some.inj hp]
      · cases hp
  exact tokenizeFuel_ends hd _ _ tokens' (by rw [← ht]; exact htok)

/-! ## Writing structured programs -/

/-- A statement of one opcode. -/
abbrev op (i : Instr) : Stmt Instr := .instr i

/-- A statement that pushes data. -/
abbrev data (d : Bytes) : Stmt Instr := .instr (.push d)

/-- A statement that pushes an integer. -/
abbrev num (v : UInt64) : Stmt Instr := .instr (.push (encodeNum v.toNat))

/-! ## Evaluation -/

/-- `p` evaluates on `s` and leaves `r`. -/
def Evals (env : Env) (p : List (Stmt Instr)) (s r : Stack) : Prop :=
  (machine env).eval p s = some r

/-- A script whose bytes are the flat form of `p` succeeds exactly when `p`
leaves a single true item. -/
theorem succeeds_iff {env : Env} {script : Bytes} {p : List (Stmt Instr)}
    (h : tokenize script = some (flattenAll p)) (w : Stack) :
    succeeds env script w = true ↔ ∃ v, Evals env p w [v] ∧ asBool v = true := by
  unfold succeeds execScript Evals
  rw [h, Option.bind_some, Machine.exec_flatten]
  cases he : (machine env).eval p w with
  | none => simp
  | some r =>
    match r with
    | [] => simp
    | [v] => simp
    | _ :: _ :: _ => simp

section rules
variable {env : Env} {p q : List (Stmt Instr)} {s r : Stack}

/-- Evaluation of a program in two parts goes through a stack between them. -/
theorem evals_append : Evals env (p ++ q) s r ↔ ∃ m, Evals env p s m ∧ Evals env q m r :=
  (machine env).eval_append_iff p q s r

@[simp] theorem evals_nil : Evals env [] s r ↔ s = r := (machine env).eval_nil_iff s r

theorem evals_instr {i : Instr} : Evals env (.instr i :: p) s r ↔
    ∃ m, stepInstr env i s = some m ∧ Evals env p m r :=
  (machine env).eval_instr_iff i p s r

/-- A branch without `ELSE`: the condition is taken off the stack, and the body either runs or
is left out. -/
@[simp] theorem evals_ifThen {body : List (Stmt Instr)} : Evals env (.ifThen body :: p) s r ↔
    ∃ x s', s = x :: s' ∧ ∃ m, (asBool x = true ∧ Evals env body s' m ∨ asBool x = false ∧ s' = m) ∧
      Evals env p m r := by
  unfold Evals
  rw [Machine.eval_ifThen_iff]
  cases s with
  | nil => simp [machine, testTop]
  | cons x s => simp [machine, testTop]

/-- A branch with `ELSE`: exactly one of the two bodies runs. -/
@[simp] theorem evals_ifElse {body other : List (Stmt Instr)} :
    Evals env (.ifElse body other :: p) s r ↔
    ∃ x s', s = x :: s' ∧
      ∃ m, (asBool x = true ∧ Evals env body s' m ∨ asBool x = false ∧ Evals env other s' m) ∧
        Evals env p m r := by
  unfold Evals
  rw [Machine.eval_ifElse_iff]
  cases s with
  | nil => simp [machine, testTop]
  | cons x s => simp [machine, testTop]

@[simp] theorem evals_push {d : Bytes} :
    Evals env (.instr (.push d) :: p) s r ↔ Evals env p (d :: s) r := by
  rw [evals_instr]
  exact ⟨fun ⟨m, hm, hp⟩ => by cases hm; exact hp, fun hp => ⟨_, rfl, hp⟩⟩

/-- A checked step keeps the stack and only passes when the check does. -/
theorem guarded_eq_some {cond : Prop} [Decidable cond] {s m : Stack} :
    guarded cond s = some m ↔ cond ∧ s = m := by
  unfold guarded
  split <;> simp_all

/-- A number is put back only within the signed range of eight octets. -/
theorem pushNum_eq_some {z : Int} {s m : Stack} :
    pushNum z s = some m ↔ z.natAbs < 2 ^ 63 ∧ encodeNum z :: s = m := by
  unfold pushNum
  split <;> simp_all

/-! An opcode that pops its operands continues on what it leaves. -/

/-- One operand is taken off the stack. The rules of single opcodes below are this one with
their own function. -/
theorem evals_pop1 {i : Instr} {f : Bytes → Stack → Option Stack} (h : stepInstr env i = pop1 f) :
    Evals env (.instr i :: p) s r ↔
      ∃ x s', s = x :: s' ∧ ∃ m, f x s' = some m ∧ Evals env p m r := by
  rw [evals_instr, h]
  rcases s with _ | ⟨x, s⟩ <;> simp [pop1]

/-- Two operands: the topmost is the right one. -/
theorem evals_pop2 {i : Instr} {f : Bytes → Bytes → Stack → Option Stack}
    (h : stepInstr env i = pop2 f) : Evals env (.instr i :: p) s r ↔
      ∃ y x s', s = y :: x :: s' ∧ ∃ m, f x y s' = some m ∧ Evals env p m r := by
  rw [evals_instr, h]
  rcases s with _ | ⟨y, _ | ⟨x, s⟩⟩ <;> simp [pop2]

theorem evals_pop3 {i : Instr} {f : Bytes → Bytes → Bytes → Stack → Option Stack}
    (h : stepInstr env i = pop3 f) : Evals env (.instr i :: p) s r ↔
      ∃ z y x s', s = z :: y :: x :: s' ∧ ∃ m, f x y z s' = some m ∧ Evals env p m r := by
  rw [evals_instr, h]
  rcases s with _ | ⟨z, _ | ⟨y, _ | ⟨x, s⟩⟩⟩ <;> simp [pop3]

/-- Arithmetic reads both operands as numbers first, and fails on either. -/
theorem evals_binary {i : Instr} {f : Int → Int → Stack → Option Stack}
    (h : stepInstr env i = binary f) : Evals env (.instr i :: p) s r ↔
    ∃ b a s', s = b :: a :: s' ∧ ∃ za, decodeNum a = some za ∧ ∃ zb, decodeNum b = some zb ∧
      ∃ m, f za zb s' = some m ∧ Evals env p m r := by
  rw [evals_pop2 h]
  simp only [Option.bind_eq_some_iff, ← exists_and_right, and_assoc]
  constructor
  · rintro ⟨b, a, s', hs, m, za, ha, zb, hb, hf, hp⟩
    exact ⟨b, a, s', hs, za, ha, zb, hb, m, hf, hp⟩
  · rintro ⟨b, a, s', hs, za, ha, zb, hb, m, hf, hp⟩
    exact ⟨b, a, s', hs, m, za, ha, zb, hb, hf, hp⟩

/-- Introspection with a position: the position must name something, and the opcode fails otherwise. -/
theorem evals_indexed {i : Instr} {α : Type} {lookup : Nat → Option α}
    {f : α → Stack → Option Stack} (h : stepInstr env i = indexed lookup f) :
    Evals env (.instr i :: p) s r ↔
    ∃ k s', s = k :: s' ∧ ∃ n, decodeIndex k = some n ∧ ∃ a, lookup n = some a ∧
      ∃ m, f a s' = some m ∧ Evals env p m r := by
  rw [evals_pop1 h]
  simp only [Option.bind_eq_some_iff, ← exists_and_right, and_assoc]
  constructor
  · rintro ⟨k, s', hs, m, n, hn, a, ha, hf, hp⟩
    exact ⟨k, s', hs, n, hn, a, ha, m, hf, hp⟩
  · rintro ⟨k, s', hs, n, hn, a, ha, m, hf, hp⟩
    exact ⟨k, s', hs, m, n, hn, a, ha, hf, hp⟩

/-! Stack and byte-string opcodes -/

@[simp] theorem evals_verify : Evals env (.instr .verify :: p) s r ↔
    ∃ x s', s = x :: s' ∧ asBool x = true ∧ Evals env p s' r := by
  rw [evals_pop1 rfl]
  simp [guarded_eq_some, and_assoc]

@[simp] theorem evals_drop : Evals env (.instr .drop :: p) s r ↔
    ∃ x s', s = x :: s' ∧ Evals env p s' r := by
  rw [evals_pop1 rfl]
  simp

@[simp] theorem evals_dup : Evals env (.instr .dup :: p) s r ↔
    ∃ x s', s = x :: s' ∧ Evals env p (x :: x :: s') r := by
  rw [evals_pop1 rfl]
  simp

@[simp] theorem evals_swap : Evals env (.instr .swap :: p) s r ↔
    ∃ y x s', s = y :: x :: s' ∧ Evals env p (x :: y :: s') r := by
  rw [evals_pop2 rfl]
  simp

@[simp] theorem evals_cat : Evals env (.instr .cat :: p) s r ↔
    ∃ y x s', s = y :: x :: s' ∧ Evals env p ((x ++ y) :: s') r := by
  rw [evals_pop2 rfl]
  simp

/-- `PICK` counts from the top, after its own operand is gone. -/
@[simp] theorem evals_pick : Evals env (.instr .pick :: p) s r ↔
    ∃ k s', s = k :: s' ∧ ∃ n, decodeIndex k = some n ∧ ∃ x, s'[n]? = some x ∧
      Evals env p (x :: s') r := by
  rw [evals_pop1 rfl]
  simp only [Option.bind_eq_some_iff, Option.map_eq_some_iff, ← exists_and_right, and_assoc]
  constructor
  · rintro ⟨k, s', hs, m, n, hn, x, hx, rfl, hp⟩
    exact ⟨k, s', hs, n, hn, x, hx, hp⟩
  · rintro ⟨k, s', hs, n, hn, x, hx, hp⟩
    exact ⟨k, s', hs, x :: s', n, hn, x, hx, rfl, hp⟩

/-- `SUBSTR` fails when its range is not within the item. -/
@[simp] theorem evals_substr : Evals env (.instr .substr :: p) s r ↔
    ∃ e b x s', s = e :: b :: x :: s' ∧ ∃ start, decodeIndex b = some start ∧
      ∃ stop, decodeIndex e = some stop ∧ ∃ part, slice x start stop = some part ∧
        Evals env p (part :: s') r := by
  rw [evals_pop3 rfl]
  simp only [Option.bind_eq_some_iff, Option.map_eq_some_iff, ← exists_and_right, and_assoc]
  constructor
  · rintro ⟨e, b, x, s', hs, m, start, hb, stop, he, part, hp, rfl, hr⟩
    exact ⟨e, b, x, s', hs, start, hb, stop, he, part, hp, hr⟩
  · rintro ⟨e, b, x, s', hs, start, hb, stop, he, part, hp, hr⟩
    exact ⟨e, b, x, s', hs, _, start, hb, stop, he, part, hp, rfl, hr⟩

@[simp] theorem evals_equal : Evals env (.instr .equal :: p) s r ↔
    ∃ y x s', s = y :: x :: s' ∧ Evals env p (boolBytes (x = y) :: s') r := by
  rw [evals_pop2 rfl]
  simp

/-- The verifying form leaves nothing on the stack. -/
@[simp] theorem evals_equalVerify : Evals env (.instr .equalVerify :: p) s r ↔
    ∃ y x s', s = y :: x :: s' ∧ x = y ∧ Evals env p s' r := by
  rw [evals_pop2 rfl]
  simp [guarded_eq_some]

/-! Hashes, signatures and locks -/

@[simp] theorem evals_blake2b : Evals env (.instr .blake2b :: p) s r ↔
    ∃ x s', s = x :: s' ∧ Evals env p ((env.crypto.blake2b x).val :: s') r := by
  rw [evals_pop1 rfl]
  simp

@[simp] theorem evals_sha256 : Evals env (.instr .sha256 :: p) s r ↔
    ∃ x s', s = x :: s' ∧ Evals env p ((env.crypto.sha256 x).val :: s') r := by
  rw [evals_pop1 rfl]
  simp

@[simp] theorem evals_checkSig : Evals env (.instr .checkSig :: p) s r ↔
    ∃ key sig s', s = key :: sig :: s' ∧
      Evals env p (boolBytes (env.crypto.checkSig env.tx env.index sig key) :: s') r := by
  rw [evals_pop2 rfl]
  simp

/-- The signature is checked against the transaction of the environment, at the input the script
belongs to. -/
@[simp] theorem evals_checkSigVerify : Evals env (.instr .checkSigVerify :: p) s r ↔
    ∃ key sig s', s = key :: sig :: s' ∧
      env.crypto.checkSig env.tx env.index sig key = true ∧ Evals env p s' r := by
  rw [evals_pop2 rfl]
  simp [guarded_eq_some, and_assoc]

/-- Both lock opcodes pop an unsigned operand and compare it. -/
theorem evals_lock {i : Instr} {met : Nat → Prop} [DecidablePred met]
    (h : stepInstr env i = pop1 fun x s => (decodeLock x).bind fun v => guarded (met v) s) :
    Evals env (.instr i :: p) s r ↔
      ∃ x s', s = x :: s' ∧ ∃ v, decodeLock x = some v ∧ met v ∧ Evals env p s' r := by
  rw [evals_pop1 h]
  simp only [Option.bind_eq_some_iff, guarded_eq_some, ← exists_and_right, and_assoc]
  constructor
  · rintro ⟨x, s', hs, m, v, hv, hm, rfl, hp⟩
    exact ⟨x, s', hs, v, hv, hm, hp⟩
  · rintro ⟨x, s', hs, v, hv, hm, hp⟩
    exact ⟨x, s', hs, s', v, hv, hm, rfl, hp⟩

/-- The lock is read as an unsigned number and compared with the transaction's. -/
@[simp] theorem evals_checkLockTimeVerify : Evals env (.instr .checkLockTimeVerify :: p) s r ↔
    ∃ x s', s = x :: s' ∧ ∃ v, decodeLock x = some v ∧ lockTimeMet env v ∧ Evals env p s' r :=
  evals_lock rfl

/-- The relative lock is compared with the input's own sequence. -/
@[simp] theorem evals_checkSequenceVerify : Evals env (.instr .checkSequenceVerify :: p) s r ↔
    ∃ x s', s = x :: s' ∧ ∃ v, decodeLock x = some v ∧ sequenceMet env v ∧ Evals env p s' r :=
  evals_lock rfl

/-! Arithmetic -/

/-- A sum outside the signed range of eight octets fails the script; it does not wrap. -/
@[simp] theorem evals_add : Evals env (.instr .add :: p) s r ↔
    ∃ b a s', s = b :: a :: s' ∧ ∃ za, decodeNum a = some za ∧ ∃ zb, decodeNum b = some zb ∧
      (za + zb).natAbs < 2 ^ 63 ∧ Evals env p (encodeNum (za + zb) :: s') r := by
  rw [evals_binary rfl]
  simp [pushNum_eq_some, and_assoc]

@[simp] theorem evals_sub : Evals env (.instr .sub :: p) s r ↔
    ∃ b a s', s = b :: a :: s' ∧ ∃ za, decodeNum a = some za ∧ ∃ zb, decodeNum b = some zb ∧
      (za - zb).natAbs < 2 ^ 63 ∧ Evals env p (encodeNum (za - zb) :: s') r := by
  rw [evals_binary rfl]
  simp [pushNum_eq_some, and_assoc]

@[simp] theorem evals_numEqualVerify : Evals env (.instr .numEqualVerify :: p) s r ↔
    ∃ b a s', s = b :: a :: s' ∧ ∃ za, decodeNum a = some za ∧ ∃ zb, decodeNum b = some zb ∧
      za = zb ∧ Evals env p s' r := by
  rw [evals_binary rfl]
  simp [guarded_eq_some]

@[simp] theorem evals_lessThanOrEqual : Evals env (.instr .lessThanOrEqual :: p) s r ↔
    ∃ b a s', s = b :: a :: s' ∧ ∃ za, decodeNum a = some za ∧ ∃ zb, decodeNum b = some zb ∧
      Evals env p (boolBytes (za ≤ zb) :: s') r := by
  rw [evals_binary rfl]
  simp

@[simp] theorem evals_greaterThanOrEqual : Evals env (.instr .greaterThanOrEqual :: p) s r ↔
    ∃ b a s', s = b :: a :: s' ∧ ∃ za, decodeNum a = some za ∧ ∃ zb, decodeNum b = some zb ∧
      Evals env p (boolBytes (zb ≤ za) :: s') r := by
  rw [evals_binary rfl]
  simp

/-- The range test includes its lower end and not its upper one. -/
@[simp] theorem evals_within : Evals env (.instr .within :: p) s r ↔
    ∃ hi lo x s', s = hi :: lo :: x :: s' ∧ ∃ zx, decodeNum x = some zx ∧
      ∃ zlo, decodeNum lo = some zlo ∧ ∃ zhi, decodeNum hi = some zhi ∧
        Evals env p (boolBytes (zlo ≤ zx ∧ zx < zhi) :: s') r := by
  rw [evals_pop3 rfl]
  simp only [Option.bind_eq_some_iff, Option.some.injEq, ← exists_and_right, and_assoc]
  constructor
  · rintro ⟨hi, lo, x, s', hs, m, zx, hx, zlo, hl, zhi, hh, rfl, hp⟩
    exact ⟨hi, lo, x, s', hs, zx, hx, zlo, hl, zhi, hh, hp⟩
  · rintro ⟨hi, lo, x, s', hs, zx, hx, zlo, hl, zhi, hh, hp⟩
    exact ⟨hi, lo, x, s', hs, _, zx, hx, zlo, hl, zhi, hh, rfl, hp⟩

/-! Introspection -/

/-- An opcode that only pushes a count or a position. -/
theorem evals_count {i : Instr} {n : Nat} (h : stepInstr env i = pushNum n) :
    Evals env (.instr i :: p) s r ↔ n < 2 ^ 63 ∧ Evals env p (encodeNum n :: s) r := by
  rw [evals_instr, h]
  simp [pushNum_eq_some, and_assoc]

@[simp] theorem evals_txInputCount : Evals env (.instr .txInputCount :: p) s r ↔
    env.tx.tx.inputs.length < 2 ^ 63 ∧
      Evals env p (encodeNum env.tx.tx.inputs.length :: s) r :=
  evals_count rfl

@[simp] theorem evals_txOutputCount : Evals env (.instr .txOutputCount :: p) s r ↔
    env.tx.tx.outputs.length < 2 ^ 63 ∧
      Evals env p (encodeNum env.tx.tx.outputs.length :: s) r :=
  evals_count rfl

/-- The input the script belongs to. -/
@[simp] theorem evals_txInputIndex : Evals env (.instr .txInputIndex :: p) s r ↔
    env.index < 2 ^ 63 ∧ Evals env p (encodeNum env.index :: s) r :=
  evals_count rfl

@[simp] theorem evals_txInputScriptSigLen : Evals env (.instr .txInputScriptSigLen :: p) s r ↔
    ∃ k s', s = k :: s' ∧ ∃ n, decodeIndex k = some n ∧
      ∃ input, env.tx.tx.inputs[n]? = some input ∧ input.sigScript.length < 2 ^ 63 ∧
        Evals env p (encodeNum input.sigScript.length :: s') r := by
  rw [evals_indexed rfl]
  simp [pushNum_eq_some, and_assoc]

/-- A part of another input's signature script; this is how a script looks at who else signed. -/
@[simp] theorem evals_txInputScriptSigSubstr :
    Evals env (.instr .txInputScriptSigSubstr :: p) s r ↔
    ∃ e b k s', s = e :: b :: k :: s' ∧ ∃ n, decodeIndex k = some n ∧
      ∃ input, env.tx.tx.inputs[n]? = some input ∧ ∃ start, decodeIndex b = some start ∧
        ∃ stop, decodeIndex e = some stop ∧ ∃ part, slice input.sigScript start stop = some part ∧
          Evals env p (part :: s') r := by
  rw [evals_pop3 rfl]
  simp only [Option.bind_eq_some_iff, Option.map_eq_some_iff, ← exists_and_right, and_assoc]
  constructor
  · rintro ⟨e, b, k, s', hs, m, n, hn, input, hi, start, hb, stop, he, part, hp, rfl, hr⟩
    exact ⟨e, b, k, s', hs, n, hn, input, hi, start, hb, stop, he, part, hp, hr⟩
  · rintro ⟨e, b, k, s', hs, n, hn, input, hi, start, hb, stop, he, part, hp, hr⟩
    exact ⟨e, b, k, s', hs, _, n, hn, input, hi, start, hb, stop, he, part, hp, rfl, hr⟩

/-- Amounts come from the spent entries, which the transaction itself does not carry. -/
@[simp] theorem evals_txInputAmount : Evals env (.instr .txInputAmount :: p) s r ↔
    ∃ k s', s = k :: s' ∧ ∃ n, decodeIndex k = some n ∧
      ∃ entry, env.tx.entries[n]? = some entry ∧ entry.amount.toNat < 2 ^ 63 ∧
        Evals env p (encodeNum entry.amount.toNat :: s') r := by
  rw [evals_indexed rfl]
  simp [pushNum_eq_some, and_assoc]

@[simp] theorem evals_txInputSpk : Evals env (.instr .txInputSpk :: p) s r ↔
    ∃ k s', s = k :: s' ∧ ∃ n, decodeIndex k = some n ∧
      ∃ entry, env.tx.entries[n]? = some entry ∧ Evals env p (entry.spk :: s') r := by
  rw [evals_indexed rfl]
  simp

@[simp] theorem evals_txOutputAmount : Evals env (.instr .txOutputAmount :: p) s r ↔
    ∃ k s', s = k :: s' ∧ ∃ n, decodeIndex k = some n ∧
      ∃ out, env.tx.tx.outputs[n]? = some out ∧ out.value.toNat < 2 ^ 63 ∧
        Evals env p (encodeNum out.value.toNat :: s') r := by
  rw [evals_indexed rfl]
  simp [pushNum_eq_some, and_assoc]

@[simp] theorem evals_txOutputSpk : Evals env (.instr .txOutputSpk :: p) s r ↔
    ∃ k s', s = k :: s' ∧ ∃ n, decodeIndex k = some n ∧
      ∃ out, env.tx.tx.outputs[n]? = some out ∧ Evals env p (out.spk :: s') r := by
  rw [evals_indexed rfl]
  simp

/-- An untagged entry gives the empty string. -/
@[simp] theorem evals_inputCovenantId : Evals env (.instr .inputCovenantId :: p) s r ↔
    ∃ k s', s = k :: s' ∧ ∃ n, decodeIndex k = some n ∧ ∃ entry, env.tx.entries[n]? = some entry ∧
      Evals env p (covenantIdBytes entry :: s') r := by
  rw [evals_indexed rfl]
  simp

/-- Inputs are counted by the tag of the entries they spend. -/
@[simp] theorem evals_covInputCount : Evals env (.instr .covInputCount :: p) s r ↔
    ∃ id s', s = id :: s' ∧ (taggedInputs env.tx id).length < 2 ^ 63 ∧
      Evals env p (encodeNum (taggedInputs env.tx id).length :: s') r := by
  rw [evals_pop1 rfl]
  simp [pushNum_eq_some, and_assoc]

/-- Outputs are counted by their own covenant binding. -/
@[simp] theorem evals_covOutputCount : Evals env (.instr .covOutputCount :: p) s r ↔
    ∃ id s', s = id :: s' ∧ (taggedOutputs env.tx.tx id).length < 2 ^ 63 ∧
      Evals env p (encodeNum (taggedOutputs env.tx.tx id).length :: s') r := by
  rw [evals_pop1 rfl]
  simp [pushNum_eq_some, and_assoc]

/-- The position in the transaction of the n-th output with a tag. -/
@[simp] theorem evals_covOutputIdx : Evals env (.instr .covOutputIdx :: p) s r ↔
    ∃ k id s', s = k :: id :: s' ∧ ∃ n, decodeIndex k = some n ∧
      ∃ out, (taggedOutputs env.tx.tx id)[n]? = some out ∧ out < 2 ^ 63 ∧
        Evals env p (encodeNum out :: s') r := by
  rw [evals_pop2 rfl]
  simp only [Option.bind_eq_some_iff, pushNum_eq_some, Int.natAbs_natCast, ← exists_and_right,
    and_assoc]
  constructor
  · rintro ⟨k, id, s', hs, m, n, hn, out, ho, hl, rfl, hp⟩
    exact ⟨k, id, s', hs, n, hn, out, ho, hl, hp⟩
  · rintro ⟨k, id, s', hs, n, hn, out, ho, hl, hp⟩
    exact ⟨k, id, s', hs, _, n, hn, out, ho, hl, rfl, hp⟩

/-! The proof precompile, under the tag of succinct receipts -/

/-- The proof check takes eight operands under its tag, and leaves what lies below them. -/
theorem evals_risc0 : Evals env (.instr .zkPrecompile :: p) ([0x21] :: s) r ↔
    ∃ hashfn controlId imageId journalHash sealData controlDigests controlIndex claim rest,
      s = hashfn :: controlId :: imageId :: journalHash :: sealData :: controlDigests ::
        controlIndex :: claim :: rest ∧
      Evals env p (boolBytes (env.crypto.risc0 ⟨claim, controlIndex, controlDigests, sealData,
        journalHash, imageId, controlId, hashfn⟩) :: rest) r := by
  rw [evals_instr, show stepInstr env .zkPrecompile = zkPrecompile env.crypto from rfl]
  match s with
  | a :: b :: c :: d :: e :: f :: g :: h :: rest => simp [zkPrecompile]
  | [] | [_] | [_, _] | [_, _, _] | [_, _, _, _] | [_, _, _, _, _] | [_, _, _, _, _, _]
  | [_, _, _, _, _, _, _] => simp [zkPrecompile]

/-! Operands the machine itself wrote -/

@[simp] theorem asBool_boolBytes (b : Bool) : asBool (boolBytes b) = b := by
  cases b <;> decide

/-- A number reads back as itself exactly when eight octets can hold it. -/
@[simp] theorem decodeNum_encodeNum_iff {z y : Int} :
    decodeNum (encodeNum z) = some y ↔ z.natAbs < 2 ^ 63 ∧ z = y := by
  by_cases h : z.natAbs < 2 ^ 63
  · rw [decodeNum_encodeNum z h, Option.some.injEq]
    exact ⟨fun e => ⟨h, e⟩, And.right⟩
  · rw [decodeNum_encodeNum_none z (Nat.le_of_not_lt h)]
    exact ⟨nofun, fun e => absurd e.1 h⟩

/-- As a position, a number must also not be negative. -/
@[simp] theorem decodeIndex_encodeNum_iff {z : Int} {n : Nat} :
    decodeIndex (encodeNum z) = some n ↔ z.natAbs < 2 ^ 63 ∧ 0 ≤ z ∧ z.toNat = n := by
  simp only [decodeIndex, Option.bind_eq_some_iff, decodeNum_encodeNum_iff]
  constructor
  · rintro ⟨y, ⟨hz, rfl⟩, hn⟩
    split at hn
    · rename_i h0
      exact ⟨hz, h0, by simpa using hn⟩
    · cases hn
  · rintro ⟨hz, h0, hn⟩
    exact ⟨z, ⟨hz, rfl⟩, by simp [h0, hn]⟩

@[simp] theorem decodeLock_encodeNum_iff {n v : Nat} :
    decodeLock (encodeNum n) = some v ↔ n < 2 ^ 63 ∧ n = v := by
  have hw := numWidth_le_eight n
  have hv : leNat (encodeNum n) = n := by
    rw [leNat_encodeNum, if_neg (by omega)]
    simp
  simp only [decodeLock, encodeNum_length, Int.natAbs_natCast, hv]
  by_cases h : n < 2 ^ 63
  · rw [if_neg (Nat.not_lt.mpr (hw.mpr h)), Option.some.injEq]
    exact ⟨fun e => ⟨h, e⟩, And.right⟩
  · rw [if_pos (Nat.lt_of_not_le fun hc => h (hw.mp hc))]
    exact ⟨nofun, fun e => absurd e.1 h⟩

/-! Fragments that several scripts share -/

/-- A number is taken off the top of the stack. -/
theorem evals_subNum {back : UInt64} {z : Int}
    (h : Evals env (num back :: op .sub :: p) (encodeNum z :: s) r) :
    Evals env p (encodeNum (z - back.toNat) :: s) r := by
  simp at h
  exact h.2.2.2

/-- A part of the signature script of the input on the stack. -/
theorem evals_sigScriptSubstr {k : Nat} {input : ConsensusInput} {start stop : Int}
    (hin : env.tx.tx.inputs[k]? = some input)
    (h : Evals env (op .txInputScriptSigSubstr :: p)
      (encodeNum stop :: encodeNum start :: encodeNum k :: s) r) :
    ∃ part, 0 ≤ start ∧ slice input.sigScript start.toNat stop.toNat = some part ∧
      Evals env p (part :: s) r := by
  simp [hin] at h
  obtain ⟨-, ⟨-, hstart⟩, -, part, hpart, hp⟩ := h
  exact ⟨part, hstart, hpart, hp⟩

/-- The amount of the first input is read. -/
theorem evals_firstAmount : Evals env (num 0 :: op .txInputAmount :: p) s r ↔
    ∃ entry : UtxoEntry, env.tx.entries[0]? = some entry ∧ entry.amount.toNat < 2 ^ 63 ∧
      Evals env p (encodeNum entry.amount.toNat :: s) r := by
  simp

/-- The total on the stack, which stays, is no less than the first output. -/
theorem evals_coversFirst {total : Nat} :
    Evals env (op .dup :: num 0 :: op .txOutputAmount :: op .greaterThanOrEqual :: op .verify :: p)
      (encodeNum total :: s) r ↔
    ∃ out : ConsensusOutput, env.tx.tx.outputs[0]? = some out ∧
      (out.value.toNat < 2 ^ 63 ∧ total < 2 ^ 63) ∧ out.value.toNat ≤ total ∧
        Evals env p (encodeNum total :: s) r := by
  simp
  constructor
  · rintro ⟨out, hout, hv, ht, -, hle, hp⟩
    exact ⟨out, hout, ⟨hv, ht⟩, hle, hp⟩
  · rintro ⟨out, hout, ⟨hv, ht⟩, hle, hp⟩
    exact ⟨out, hout, hv, ht, hv, hle, hp⟩

/-- What the first output leaves of the total on the stack is at most the fee. -/
theorem evals_leavesFee {fee : UInt64} {total : Nat} :
    Evals env (num 0 :: op .txOutputAmount :: op .sub :: num fee :: op .lessThanOrEqual ::
      op .verify :: p) (encodeNum total :: s) r ↔
    ∃ out : ConsensusOutput, env.tx.tx.outputs[0]? = some out ∧
      (out.value.toNat < 2 ^ 63 ∧ total < 2 ^ 63 ∧ fee.toNat < 2 ^ 63) ∧
        total ≤ out.value.toNat + fee.toNat ∧ Evals env p s r := by
  simp
  constructor
  · rintro ⟨out, hout, hv, ht, -, -, hfee, hle, hp⟩
    exact ⟨out, hout, ⟨hv, ht, hfee⟩, by omega, hp⟩
  · rintro ⟨out, hout, ⟨hv, ht, hfee⟩, hle, hp⟩
    exact ⟨out, hout, hv, ht, hv, by omega, hfee, by omega, hp⟩

/-- The output at the position on the stack has the script of the spent entry. -/
theorem evals_outputPaysOwn {e : UtxoEntry} {k : Nat} (he : env.tx.entries[env.index]? = some e) :
    Evals env (op .txOutputSpk :: op .txInputIndex :: op .txInputSpk :: op .equalVerify :: p)
      (encodeNum k :: s) r ↔
      (k < 2 ^ 63 ∧ env.index < 2 ^ 63) ∧
      (∃ out, env.tx.tx.outputs[k]? = some out ∧ out.spk = e.spk) ∧ Evals env p s r := by
  simp [he]
  constructor
  · rintro ⟨hk, out, hout, hi, hspk, hp⟩
    exact ⟨⟨hk, hi⟩, ⟨out, hout, hspk⟩, hp⟩
  · rintro ⟨⟨hk, hi⟩, ⟨out, hout, hspk⟩, hp⟩
    exact ⟨hk, out, hout, hi, hspk, hp⟩

/-- The output at the position on the stack holds what the spent entry held, but for a cap. -/
theorem evals_outputKeeps {e : UtxoEntry} {cap : UInt64} {k : Nat}
    (he : env.tx.entries[env.index]? = some e) :
    Evals env (op .txOutputAmount :: op .txInputIndex :: op .txInputAmount :: num cap :: op .sub ::
      op .greaterThanOrEqual :: op .verify :: p) (encodeNum k :: s) r ↔
      (k < 2 ^ 63 ∧ env.index < 2 ^ 63 ∧ e.amount.toNat < 2 ^ 63 ∧ cap.toNat < 2 ^ 63) ∧
      (∃ out, env.tx.tx.outputs[k]? = some out ∧ out.value.toNat < 2 ^ 63 ∧
        e.amount.toNat ≤ out.value.toNat + cap.toNat) ∧ Evals env p s r := by
  simp [he]
  constructor
  · rintro ⟨hk, out, hout, hv, hi, ha, hc, -, -, -, hle, hp⟩
    exact ⟨⟨hk, hi, ha, hc⟩, ⟨out, hout, hv, by omega⟩, hp⟩
  · rintro ⟨⟨hk, hi, ha, hc⟩, ⟨out, hout, hv, hle⟩, hp⟩
    refine ⟨hk, out, hout, hv, hi, ha, hc, ?_, hv, ?_, ?_, hp⟩
    all_goals omega

end rules

/-! ## Concrete instances -/

/-- A field with one octet all over, for samples. -/
def filled (octet : UInt8) (n : Nat) : FixedBytes n := ⟨List.replicate n octet, by simp⟩

/-- A transaction whose only input spends `amount` locked by `redeem`. -/
def soleSpend (c : Crypto) (redeem : Bytes) (amount : UInt64) (outputs : List ConsensusOutput) :
    Env where
  crypto := c
  tx := {
    tx := {
      txVersion := 0
      inputs := [⟨filled 0 32, 0, [], 0, 0⟩]
      outputs := outputs
      locktime := 0
      subnetworkId := filled 0 20
      gas := 0
      payload := [] }
    entries := [⟨amount, 0, p2shScript (c.blake2b redeem), none⟩]
    entries_length := rfl }
  index := 0

/-- The sample spend has one input, which pays to the script. -/
theorem soleInput_soleSpend (c : Crypto) (redeem : Bytes) (amount : UInt64)
    (outputs : List ConsensusOutput) : SoleInput (soleSpend c redeem amount outputs) redeem :=
  ⟨rfl, rfl, _, rfl, rfl⟩

/-- The first 32 octets of a string, zero-padded: a stand-in digest to evaluate
scripts on fixed inputs. -/
def padTo32 (b : Bytes) : FixedBytes 32 := ⟨(b ++ List.replicate 32 0).take 32, by simp⟩

/-- A signature under a key is the key written twice; no proof verifies. -/
def sampleCrypto : Crypto where
  blake2b := padTo32
  sha256 := padTo32
  checkSig _ _ signature key := signature == key ++ key
  groth16 _ _ _ := false
  risc0 _ := false

/-- Every key can sign under the sample checker. -/
theorem canSign_sampleCrypto (key : FixedBytes 32) : CanSign sampleCrypto key :=
  fun _ _ => ⟨key.val ++ key.val, by simp [sampleCrypto]⟩

end KaspaPortal.Engine
