import PayeeProposal.Deployment
import PayeeProposal.Proposal
import PayeeProposal.Submission

/-!
# Why no payees are proposed

One type for everything that can stop the command between its arguments and its answer, with the
wording of each.
-/

namespace PayeeProposal

/-- What is wrong with arguments, environment and configuration. -/
inductive SettingsFault where
  | missingState
  | missingProposal
  | missingMint
  | missingInput
  | unreadableInput (path : String) (error : FileError)
  | unparsableInput (failure : Json.Failure)
  | environmentKey (error : KeypairError)
  | configuredKey (error : KeypairError)
  | missingKey
deriving DecidableEq, Repr

/-- What is reported of a fault. -/
def SettingsFault.message (wording : Wording) : SettingsFault → String
  | .missingState => "请提供有效的 state 地址 (--state)"
  | .missingProposal => "请提供有效的提案地址 (--proposal)"
  | .missingMint => "缺少奖励代币 Mint，请提供 --link、环境变量 LINK 或配置 ocr2.link_mint"
  | .missingInput => "未提供 --input，且未配置 --rdd 或 ocr2.rdd_path"
  | .unreadableInput path error => "读取输入文件 " ++ path ++ " 失败: " ++ wording (.file error)
  | .unparsableInput failure => "解析 --input 失败: " ++ wording (.json failure)
  | .environmentKey error =>
    "环境变量 OCR2_PAYEES_PRIVATE_KEY 非法: " ++ error.message wording
  | .configuredKey error => "配置 global.wallet.private_key 非法: " ++ error.message wording
  | .missingKey =>
    "缺少私钥配置，请提供 global.wallet.private_key 或环境变量 OCR2_PAYEES_PRIVATE_KEY"

/-- What a list of payees fails for as a whole. -/
inductive ValidationReason where
  | unfundedPayees
  | duplicateTransmitters
deriving DecidableEq, Repr

/-- What is reported of a reason. -/
def ValidationReason.message : ValidationReason → String
  | .unfundedPayees => "每个 payee 都需要有效的代币接收地址"
  | .duplicateTransmitters => "transmitter 在输入中重复出现"

/-- Why no payees are proposed. -/
inductive ProposeError where
  | configuration (fault : SettingsFault)
  | resolution (error : DeploymentError)
  | validation (reason : ValidationReason) (failed : List String)
  | missingPayee (transmitter : Address)
  | invalidAddress (text : String) (error : AddressError)
  | proposalNotFound (proposal : Address)
  | proposalOwner (proposal owner program : Address)
  | proposalDecode (error : ProposalError)
  | rpc (reason : String)
  | encode (reason : String)
  | submission (error : SubmissionError)
  | cancelled
deriving DecidableEq

/-- What is reported of a failure. -/
def ProposeError.message (wording : Wording) : ProposeError → String
  | .configuration fault => "配置缺失或非法: " ++ fault.message wording
  | .resolution error => "输入解析失败: " ++ error.message wording
  | .validation reason failed => reason.message ++ ": " ++ ", ".intercalate failed
  | .missingPayee transmitter => "提案中的 transmitter " ++ transmitter.text ++ " 没有对应的 payee"
  | .invalidAddress text error => "地址 " ++ text ++ " 非法: " ++ error.message
  | .proposalNotFound proposal => "提案账户 " ++ proposal.text ++ " 不存在"
  | .proposalOwner proposal owner program =>
    "提案账户 " ++ proposal.text ++ " 的 owner " ++ owner.text ++ " 不是 OCR2 程序 " ++ program.text
  | .proposalDecode error => "提案账户解析失败: " ++ error.message
  | .rpc reason => "RPC 请求失败: " ++ wording (.rpc reason)
  | .encode reason => "指令编码失败: " ++ reason
  | .submission error => "交易提交失败: " ++ error.message wording
  | .cancelled => "用户取消提交"

/-- The address that a text denotes; the failure names the text as it was given. -/
def Address.require (s : String) : Except ProposeError Address :=
  (Address.parseTrimmed s).mapError (.invalidAddress s)

end PayeeProposal
