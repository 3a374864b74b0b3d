import ModbusLogger.Api.Commands
import ModbusLogger.Reader.Announcements

/-!
# The addresses of the nodes

A loop reads the address and the port of its node as a socket address, and it gives up without a word
if it cannot. The worker parses every new address, and the handlers look at every new port. So a loop
can read what it gets from the database, and all its attempts to connect have an end.
-/

namespace ModbusLogger.Main

open Db Api Hasher Families Program Pool

variable {J : Type}

/-! ## Socket addresses -/

/-- A port may have leading zeros. -/
def isPortText (digits : List Char) : Bool :=
  digits ≠ [] ∧ digits.all Char.isDigit ∧ Nat.ofDigitChars 10 digits 0 ≤ 65535

/-- `parse::<SocketAddrV4>()` -/
def isSocketAddrV4 (text : String) : Bool :=
  match text.toList.splitOn ':' with
  | [ip, port] => (parseIpv4 (String.ofList ip)).isOk ∧ isPortText port
  | _ => false

theorem exists_mem_splitOn {c : Char} {text : List Char} (sep : Char) (h : c ∈ text) (hne : c ≠ sep) :
    ∃ part ∈ text.splitOn sep, c ∈ part := by
  induction text with
  | nil => cases h
  | cons x text ih =>
      rw [List.splitOn_cons_eq_if_modifyHead]
      split
      · next hsep =>
          rcases List.mem_cons.mp h with rfl | hrest
          · exact absurd (beq_iff_eq.mp hsep) hne
          · obtain ⟨part, hpart, hc⟩ := ih hrest
            exact ⟨part, List.mem_cons_of_mem _ hpart, hc⟩
      · obtain ⟨first, parts, hparts⟩ := List.exists_cons_of_ne_nil (List.splitOn_ne_nil sep text)
        rw [hparts] at ih ⊢
        rcases List.mem_cons.mp h with rfl | hrest
        · exact ⟨c :: first, List.mem_cons_self, List.mem_cons_self⟩
        · obtain ⟨part, hpart, hc⟩ := ih hrest
          rcases List.mem_cons.mp hpart with rfl | hlater
          · exact ⟨x :: part, List.mem_cons_self, List.mem_cons_of_mem x hc⟩
          · exact ⟨part, List.mem_cons_of_mem _ hlater, hc⟩

theorem colon_not_mem {ip : String} (h : parseIpv4 ip = .ok ()) : ':' ∉ ip.toList := by
  intro hcolon
  unfold parseIpv4 at h
  dsimp only at h
  split at h
  · next hoctets =>
      obtain ⟨octet, hoctet, hmem⟩ := exists_mem_splitOn '.' hcolon (by decide)
      have hdigits := List.all_eq_true.mp hoctets.2 octet hoctet
      simp only [isOctet, decide_eq_true_eq] at hdigits
      exact absurd (List.all_eq_true.mp hdigits.2.2.1 ':' hmem) (by decide)
  · cases h

theorem isSocketAddrV4_of {ip : String} {port : Int} (hip : parseIpv4 ip = .ok ())
    (hport : 0 ≤ port ∧ port ≤ 65535) : isSocketAddrV4 (ip ++ ":" ++ toString port) = true := by
  obtain ⟨n, rfl⟩ := Int.eq_ofNat_of_zero_le hport.1
  have hdigits : (toString (n : Int)).toList = Nat.toDigits 10 n := Nat.toList_repr
  have hdigit : ∀ c ∈ Nat.toDigits 10 n, c.isDigit = true := fun c hc =>
    Nat.isDigit_of_mem_toDigits (by decide) (by decide) hc
  have hnot : ':' ∉ Nat.toDigits 10 n := fun h => absurd (hdigit ':' h) (by decide)
  have htext : (ip ++ ":" ++ toString (n : Int)).toList = ip.toList ++ ':' :: Nat.toDigits 10 n := by
    rw [String.toList_append, String.toList_append, hdigits, List.append_assoc]
    rfl
  have hsplit : (ip.toList ++ ':' :: Nat.toDigits 10 n).splitOn ':' =
      [ip.toList, Nat.toDigits 10 n] := by
    rw [List.splitOn_append_cons_of_beq _ _ (beq_self_eq_true ':'),
      List.splitOn_eq_singleton (colon_not_mem hip), List.splitOn_eq_singleton hnot]
    rfl
  unfold isSocketAddrV4
  rw [htext, hsplit]
  dsimp only
  rw [String.ofList_toList, hip, decide_eq_true_eq]
  refine ⟨rfl, ?_⟩
  unfold isPortText
  rw [decide_eq_true_eq, Nat.ofDigitChars_toDigits (by decide) (by decide)]
  exact ⟨Nat.toDigits_ne_nil, List.all_eq_true.mpr hdigit, by omega⟩

/-! ## Ports -/

def IsPort (port : Int) : Prop := 0 ≤ port ∧ port ≤ 65535

theorem isPort_iff {port : Int} : Handler.isPort port = true ↔ IsPort port := decide_eq_true_iff

def WritesPort : Write J → Prop
  | .insertNode _ port _ => IsPort port
  | .updateNode _ _ port _ => ∀ p ∈ port, IsPort p
  | _ => True

def CallsPort : Db.Call J → Prop
  | .write w => WritesPort w
  | .transaction ws => ∀ w ∈ ws, WritesPort w
  | .read _ | .send _ => True

/-- The commands as the handlers send them. -/
def SendsPort : (k : Family) → k.Command J → Prop
  | .config, .nodeCreate node => ∀ p ∈ node.port, IsPort p
  | .config, .nodeUpdate node => ∀ p ∈ node.port, IsPort p
  | _, _ => True

def FamilyPort : (k : Family) → k.Call J → Prop
  | .config, c => CallsPort c
  | .users, _ | .groups, _ | .measures, _ => True

def Ported (t : Tables J) : Prop := ∀ id row, t.nodes.Has id row → ∀ p ∈ row.port, IsPort p

variable {t t' : Tables J}

theorem exec_ported {w : Write J} (hw : WritesPort w) (h : Ported t) (hexec : w.exec t = some t') :
    Ported t' := by
  cases w with
  | insertNode ip port description =>
      cases hexec
      intro id row hrow
      rcases Table.has_insert.mp hrow with hold | ⟨-, rfl⟩
      · exact h id row hold
      · rintro p ⟨⟩
        exact hw
  | updateNode nodeId ip port description =>
      cases hexec
      intro id row hrow
      obtain ⟨old, hold, rfl⟩ := Table.has_modify.mp hrow
      split
      · cases port with
        | none => exact h id old hold
        | some new => exact hw
      · exact h id old hold
  | insertDevice | updateDevice | insertValue =>
      obtain ⟨-, heq⟩ := Option.ite_none_right_eq_some.mp hexec
      cases heq
      exact h
  | updateValue value =>
      simp only [Write.exec] at hexec
      split at hexec
      · obtain ⟨-, heq⟩ := Option.ite_none_right_eq_some.mp hexec
        cases heq
        exact h
      · cases hexec
        exact h
  | deleteMeasures | markDevicesDeleted =>
      cases hexec
      exact h
  | deleteValue | deleteNodeValues =>
      obtain ⟨-, rfl⟩ := deleteValues_eq hexec
      exact h
  | deleteDevice | deleteNodeDevices =>
      obtain ⟨-, rfl⟩ := deleteDevices_eq hexec
      exact h
  | deleteNode nodeId =>
      cases hexec
      exact fun id row hrow => h id row (Table.has_delete.mp hrow).1

theorem task_ported (lib : Libraries J) (k : Family) (command : k.Command J)
    (hsends : SendsPort k command) : (k.task lib command).Every (FamilyPort k) fun _ => True := by
  cases k with
  | users | groups | measures => exact every_of_forall _ (fun _ => trivial) fun _ => trivial
  | config =>
      have hread (r : Read) : CallsPort (J := J) (.read r) := trivial
      have hsend (event : Db.ConfigEvent) : CallsPort (J := J) (.send event) := trivial
      have hcommit (ws : List (Write J)) (hws : ∀ w ∈ ws, w.Clears) : CallsPort (.transaction ws) := by
        intro w hw
        have hclears := hws w hw
        cases w with
        | deleteMeasures | deleteValue | deleteDevice => exact trivial
        | _ => exact hclears.elim
      cases command with
      | nodeCreate node =>
          apply createNode_every (P := CallsPort) node hread (fun _ => hsend _)
          show IsPort (node.port.getD 502)
          cases hport : node.port with
          | none => exact ⟨by decide, by decide⟩
          | some port => exact hsends port hport
      | nodeUpdate node =>
          exact updateNode_every (P := CallsPort) node hread (fun _ => hsend _) hsends
      | nodeDelete ts node =>
          apply deleteNode_every (P := CallsPort) ts node hread (fun _ => hsend _)
          simp [CallsPort, WritesPort]
      | deviceCreate device =>
          exact createDevice_every (P := CallsPort) device hread (fun _ => hsend _) fun _ => trivial
      | deviceUpdate device =>
          exact updateDevice_every (P := CallsPort) device hread (fun _ => hsend _) fun _ => trivial
      | deviceDelete device =>
          exact deleteDevice_every (P := CallsPort) device hread (fun _ => hsend _) fun ids =>
            hcommit _ (deleteDeviceStatements_clears ids device.id)
      | valueCreate value =>
          exact createValue_every (P := CallsPort) value hread (fun _ => hsend _) fun _ => trivial
      | valueUpdate value =>
          exact valueUpdate_every (P := CallsPort) value hread (fun _ => hsend _) fun _ => trivial
      | valueDelete value =>
          exact deleteValue_every (P := CallsPort) value hread (fun _ => hsend _)
            (hcommit _ (deleteValueStatements_clears value.id))

theorem perform_ported {collation : Collation} (k : Family) (c : k.Call J) (fate : k.Fate)
    (db : Database J) (hc : FamilyPort k c) (h : Ported db.main) :
    Ported (k.perform collation c fate db).1.main := by
  cases k with
  | config =>
      show Ported (Db.perform c fate db.main).1
      rcases Db.perform_cases c fate db.main with hsame | ⟨w, rfl, hexec⟩ | ⟨ws, rfl, hexec⟩
      · rwa [hsame]
      · exact exec_ported hc h hexec
      · exact execAll_keeps (fun w hw _ _ ha hexec => exec_ported (hc w hw) ha hexec) h hexec
  | users => exact h
  | groups =>
      refine performGroups_keeps (I := fun w : Database J => Ported w.main) ?_ ?_ h
      · exact fun write _ db' hdb hexec => (GroupWrite.exec_others hexec).1.symm ▸ hdb
      · exact fun _ _ write _ a b ha hexec => (GroupWrite.exec_others hexec).1.symm ▸ ha
  | measures =>
      rcases Family.perform_measures collation c fate db with hsame | ⟨main, hinsert, hperform⟩
      · rwa [hsame]
      · obtain ⟨-, heq⟩ := Option.ite_none_right_eq_some.mp hinsert
        rw [hperform, ← Option.some.inj heq]
        exact h

/-! ## Handlers -/

theorem sendsPort_of_sends {h : Handler} {ts : Int} {input : h.Input J}
    {command : (k : Family) × k.Command J} (hsends : h.sends ts input = some command) :
    SendsPort command.1 command.2 := by
  cases h with
  | node h =>
      cases h with
      | createNode =>
          obtain ⟨hport, heq⟩ := Option.ite_none_right_eq_some.mp hsends
          cases heq
          rintro p ⟨⟩
          exact isPort_iff.mp hport
      | updateNode =>
          obtain ⟨id, payload⟩ := input
          obtain ⟨hport, heq⟩ := Option.ite_none_right_eq_some.mp hsends
          cases heq
          intro p hp
          exact isPort_iff.mp ((Option.all_eq_true ..).mp hport p hp)
      | deleteNode =>
          cases hsends
          exact trivial
      | getNodes | getNodeByIp | getNodeById => cases hsends
  | device h =>
      cases h <;> simp only [Handler.sends] at hsends <;> (try split at hsends) <;> cases hsends <;>
        exact trivial
  | value h =>
      cases h <;> simp only [Handler.sends] at hsends <;> (try split at hsends) <;> cases hsends <;>
        exact trivial
  | user h => cases h <;> cases hsends <;> exact trivial
  | group h => cases h <;> cases hsends <;> exact trivial
  | subgroup h => cases h <;> cases hsends <;> exact trivial
  | assign h => cases h <;> cases hsends <;> exact trivial
  | auth h => cases h <;> cases hsends <;> exact trivial
  | getMeasures => cases hsends
  | root h => cases hsends
  | wsHandler => cases hsends

theorem started_ported {steps : List (ServerStep J)} {command : (k : Family) × k.Command J}
    (h : command ∈ commands (databaseSteps steps)) : SendsPort command.1 command.2 := by
  rw [commands_databaseSteps] at h
  obtain ⟨s, -, hs⟩ := List.mem_filterMap.mp h
  cases s with
  | arrive a => exact sendsPort_of_sends hs
  | flush rows =>
      cases hs
      exact trivial
  | advance i fate => cases hs
  | drop i => cases hs

/-! ## The result -/

/-- The configuration of a node, as the database has it at some time. -/
def Stored (lib : Libraries J) (collation : Collation) (steps : List (ServerStep J))
    (conf : Reader.NodeRead) : Prop :=
  ∃ before id row, before <+: steps ∧
    (runServer lib collation initDatabase before).world.main.nodes.Has id row ∧
    conf = ⟨id, row.ip, row.port⟩

variable {lib : Libraries J} {collation : Collation}

theorem Stored.address (hsymm : ∀ a b, collation.equal a b = collation.equal b a)
    {steps : List (ServerStep J)} {conf : Reader.NodeRead} (h : Stored lib collation steps conf) :
    isSocketAddrV4 (conf.ip ++ ":" ++ toString (conf.port.getD 502)) = true := by
  obtain ⟨before, id, row, -, hrow, rfl⟩ := h
  have hsound : (runServer lib collation initDatabase before).world.Sound collation :=
    runDatabase_sound lib collation hsymm (initDatabase_sound collation) _
  have hported : Ported (runServer lib collation initDatabase before).world.main :=
    run_keeps_of (I := fun db : Database J => Ported db.main) (task_ported lib) perform_ported
      (fun _ _ h => absurd h Table.not_has_startingAt) fun command h => started_ported h
  obtain ⟨hip, hport⟩ := hsound.main.nodes id row hrow
  obtain ⟨port, hport⟩ := Option.isSome_iff_exists.mp hport
  rw [hport]
  exact isSocketAddrV4_of hip (hported id row hrow port hport)

/-- **Attempts end.** A loop that gets its configurations from the database, whatever requests have made
of it, waits connected or not connected: no attempt was announced without its end. -/
theorem attempts_end {J' : Type*} (lib : Libraries J) (collation : Collation)
    (hsymm : ∀ a b, collation.equal a b = collation.equal b a) (steps : List (ServerStep J))
    (env : Reader.Environment J')
    (hparses : ∀ text, isSocketAddrV4 text = true → env.parses text = true) (conf : Reader.NodeRead)
    (wakes : List Reader.Wake) (hconf : Stored lib collation steps conf)
    (hwakes : ∀ msg, .message msg ∈ wakes → Stored lib collation steps msg.data)
    (n : Reader.NodeLoop) (h : Reader.NodeLoop.run env conf wakes = some n) :
    ∃ state, (n.readMaster.toController.filterMap Reader.MainMsg.event?).foldlM
        (Reader.hear conf.id) .unConnected = some state ∧
      state = if n.readMaster.ctx.isSome then .connected else .unConnected := by
  have hannounced : Reader.ReadMaster.Announced env
      (fun ip port => env.parses (ip ++ ":" ++ toString port) = true) conf.id n.readMaster :=
    Reader.NodeLoop.announced_run (hparses _ (hconf.address hsymm))
      (fun msg hmsg => hparses _ ((hwakes msg hmsg).address hsymm)) h
  refine ⟨_, hannounced.heard, ?_⟩
  split
  · next hconnected => exact hannounced.line.mp hconnected
  · next hclosed =>
      cases hstate : n.readMaster.ctxState with
      | connected => exact absurd (hannounced.line.mpr hstate) hclosed
      | unConnected => rfl
      | connecting =>
          have hnot := hannounced.ended hstate
          rw [hannounced.address] at hnot
          cases hnot

def withParser : Reader.Environment (Int × Int) :=
  { Reader.gatewayEnvironment with parses := isSocketAddrV4 }

def oneNode : List (ServerStep Unit) :=
  [.arrive createArrival, .advance 0 allSucceed, .advance 0 allSucceed]

theorem attempts_end_oneNode :
    ∃ n, Reader.NodeLoop.run withParser ⟨11, "10.0.0.7", some 502⟩ [.elapsed, .elapsed] = some n ∧
      ∃ state, (n.readMaster.toController.filterMap Reader.MainMsg.event?).foldlM (Reader.hear 11)
          .unConnected = some state ∧
        state = if n.readMaster.ctx.isSome then .connected else .unConnected := by
  have hruns : (Reader.NodeLoop.run withParser ⟨11, "10.0.0.7", some 502⟩
      [.elapsed, .elapsed]).isSome = true := by decide +kernel
  obtain ⟨n, hrun⟩ := Option.isSome_iff_exists.mp hruns
  have hstored : Stored noSettings Auth.exact oneNode ⟨11, "10.0.0.7", some 502⟩ :=
    ⟨oneNode, 11, ⟨"10.0.0.7", some 502, some ""⟩, List.prefix_refl _, List.mem_singleton.mpr rfl, rfl⟩
  refine ⟨n, hrun, attempts_end noSettings Auth.exact (fun a b => decide_eq_decide.mpr eq_comm) oneNode
    withParser (fun _ h => h) ⟨11, "10.0.0.7", some 502⟩ _ hstored ?_ n hrun⟩
  intro msg hmsg
  simp at hmsg

end ModbusLogger.Main
