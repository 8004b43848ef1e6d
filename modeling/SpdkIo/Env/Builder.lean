import SpdkIo.CString

/-!
# The builders

`SpdkEnvBuilder` (`env.rs`) and `SpdkAppBuilder` (`app.rs`): their settings, and the options they
pass to SPDK. The options are SPDK's defaults with the settings written over them; of a record of
SPDK only the fields that the builders write are modelled.
-/

namespace SpdkIo

inductive LogLevel
  | disabled
  | error
  | warn
  | notice
  | info
  | debug
  deriving DecidableEq

/-! ## The environment -/

structure SpdkEnvBuilder where
  name : Option (List UInt8)
  coreMask : Option (List UInt8)
  memSizeMb : Option Int32
  shmId : Option Int32
  noPci : Bool
  noHuge : Bool
  hugepageSingleSegments : Bool
  mainCore : Option Int32
  logLevel : Option LogLevel

/-- `SpdkEnvBuilder::new` -/
def SpdkEnvBuilder.new : SpdkEnvBuilder where
  name := none
  coreMask := none
  memSizeMb := none
  shmId := none
  noPci := false
  noHuge := false
  hugepageSingleSegments := false
  mainCore := none
  logLevel := none

/-- `spdk_env_opts`; a text that was not set is null. -/
structure EnvOpts where
  name : Option (List UInt8)
  coreMask : Option (List UInt8)
  memSize : Int32
  shmId : Int32
  mainCore : Int32
  noPci : Bool
  noHuge : Bool
  hugepageSingleSegments : Bool
  deriving DecidableEq

/-- The options that `build` passes to SPDK, written over the `defaults` of `spdk_env_opts_init`. -/
def SpdkEnvBuilder.opts (b : SpdkEnvBuilder) (defaults : EnvOpts) : Result EnvOpts := do
  let nameCstr ← cstringOpt b.name
  let coreMaskCstr ← cstringOpt b.coreMask
  return {
    name := nameCstr <|> defaults.name
    coreMask := coreMaskCstr <|> defaults.coreMask
    memSize := b.memSizeMb.getD defaults.memSize
    shmId := b.shmId.getD defaults.shmId
    mainCore := b.mainCore.getD defaults.mainCore
    noPci := b.noPci
    noHuge := b.noHuge
    hugepageSingleSegments := b.hugepageSingleSegments }

/-- The texts of the builder have no NUL byte. -/
def SpdkEnvBuilder.NulFree (b : SpdkEnvBuilder) : Prop :=
  SpdkIo.NulFree b.name ∧ SpdkIo.NulFree b.coreMask

instance (b : SpdkEnvBuilder) : Decidable b.NulFree :=
  inferInstanceAs (Decidable (_ ∧ _))

theorem SpdkEnvBuilder.opts_of_nulFree {b : SpdkEnvBuilder} (h : b.NulFree) (defaults : EnvOpts) :
    ∃ opts, b.opts defaults = .ok opts := by
  unfold opts
  rw [cstringOpt_of_nulFree h.1, cstringOpt_of_nulFree h.2]
  exact ⟨_, rfl⟩

theorem SpdkEnvBuilder.opts_of_not {b : SpdkEnvBuilder} (h : ¬ b.NulFree) (defaults : EnvOpts) :
    ∃ e, b.opts defaults = .error e := by
  unfold opts
  by_cases hname : SpdkIo.NulFree b.name
  · obtain ⟨e, he⟩ := cstringOpt_of_not fun hmask => h ⟨hname, hmask⟩
    rw [cstringOpt_of_nulFree hname, he]
    exact ⟨e, rfl⟩
  · obtain ⟨e, he⟩ := cstringOpt_of_not hname
    rw [he]
    exact ⟨e, rfl⟩

/-! ## The application -/

structure SpdkAppBuilder where
  name : Option (List UInt8)
  configFile : Option (List UInt8)
  jsonData : Option (List UInt8)
  jsonConfigIgnoreErrors : Bool
  reactorMask : Option (List UInt8)
  rpcAddr : Option (List UInt8)
  mainCore : Option Int32
  memSizeMb : Option Int32
  shmId : Option Int32
  noPci : Bool
  noHuge : Bool
  logLevel : Option LogLevel

/-- `SpdkAppBuilder::new` -/
def SpdkAppBuilder.new : SpdkAppBuilder where
  name := none
  configFile := none
  jsonData := none
  jsonConfigIgnoreErrors := false
  reactorMask := none
  rpcAddr := none
  mainCore := none
  memSizeMb := none
  shmId := none
  noPci := false
  noHuge := false
  logLevel := none

/-- `spdk_app_opts` -/
structure AppOpts where
  name : Option (List UInt8)
  jsonConfigFile : Option (List UInt8)
  /-- `json_data` with `json_data_size` -/
  jsonData : Option (List UInt8)
  jsonConfigIgnoreErrors : Bool
  reactorMask : Option (List UInt8)
  rpcAddr : Option (List UInt8)
  mainCore : Int32
  memSize : Int32
  shmId : Int32
  noPci : Bool
  noHuge : Bool
  printLevel : LogLevel
  deriving DecidableEq

/-- The options that `run` passes to SPDK, written over the `defaults` of `spdk_app_opts_init`. -/
def SpdkAppBuilder.opts (b : SpdkAppBuilder) (defaults : AppOpts) : Result AppOpts := do
  let nameCstr ← cstringOpt b.name
  let configFileCstr ← cstringOpt b.configFile
  let reactorMaskCstr ← cstringOpt b.reactorMask
  let rpcAddrCstr ← cstringOpt b.rpcAddr
  return {
    name := nameCstr <|> defaults.name
    jsonConfigFile := configFileCstr <|> defaults.jsonConfigFile
    jsonData := b.jsonData <|> defaults.jsonData
    jsonConfigIgnoreErrors := b.jsonConfigIgnoreErrors
    reactorMask := reactorMaskCstr <|> defaults.reactorMask
    rpcAddr := rpcAddrCstr <|> defaults.rpcAddr
    mainCore := b.mainCore.getD defaults.mainCore
    memSize := b.memSizeMb.getD defaults.memSize
    shmId := b.shmId.getD defaults.shmId
    noPci := b.noPci
    noHuge := b.noHuge
    printLevel := b.logLevel.getD defaults.printLevel }

/-- The texts of the builder that become C strings have no NUL byte. -/
def SpdkAppBuilder.NulFree (b : SpdkAppBuilder) : Prop :=
  SpdkIo.NulFree b.name ∧ SpdkIo.NulFree b.configFile ∧ SpdkIo.NulFree b.reactorMask ∧
    SpdkIo.NulFree b.rpcAddr

instance (b : SpdkAppBuilder) : Decidable b.NulFree :=
  inferInstanceAs (Decidable (_ ∧ _))

theorem SpdkAppBuilder.opts_of_nulFree {b : SpdkAppBuilder} (h : b.NulFree) (defaults : AppOpts) :
    ∃ opts, b.opts defaults = .ok opts := by
  obtain ⟨hname, hconfig, hmask, haddr⟩ := h
  unfold opts
  rw [cstringOpt_of_nulFree hname, cstringOpt_of_nulFree hconfig, cstringOpt_of_nulFree hmask,
    cstringOpt_of_nulFree haddr]
  exact ⟨_, rfl⟩

theorem SpdkAppBuilder.opts_of_not {b : SpdkAppBuilder} (h : ¬ b.NulFree) (defaults : AppOpts) :
    ∃ e, b.opts defaults = .error e := by
  unfold opts
  -- the first text with a NUL byte gives the error
  by_cases hname : SpdkIo.NulFree b.name
  · rw [cstringOpt_of_nulFree hname]
    by_cases hconfig : SpdkIo.NulFree b.configFile
    · rw [cstringOpt_of_nulFree hconfig]
      by_cases hmask : SpdkIo.NulFree b.reactorMask
      · obtain ⟨e, he⟩ := cstringOpt_of_not fun haddr => h ⟨hname, hconfig, hmask, haddr⟩
        rw [cstringOpt_of_nulFree hmask, he]
        exact ⟨e, rfl⟩
      · obtain ⟨e, he⟩ := cstringOpt_of_not hmask
        rw [he]
        exact ⟨e, rfl⟩
    · obtain ⟨e, he⟩ := cstringOpt_of_not hconfig
      rw [he]
      exact ⟨e, rfl⟩
  · obtain ⟨e, he⟩ := cstringOpt_of_not hname
    rw [he]
    exact ⟨e, rfl⟩

end SpdkIo
