import MeshCoreTCPMux.Wire

/-!
# The native companion wire codes

The opcodes, reply codes, push codes and error reasons of `protocol.cr`. Ordinary replies occupy the
low codes; from `pushAdvert` on a frame is an asynchronous push.
-/

namespace MeshCoreTCPMux
namespace Protocol

abbrev maxPayload : Nat := 176

/-- The mux-owned app target of every forwarded `DEVICE_QUERY`. -/
abbrev upstreamAppTarget : UInt8 := 14
abbrev maxExposedProtocolLevel : UInt8 := 14
abbrev minSupportedUpstreamProtocolLevel : UInt8 := 13
abbrev deviceInfoSize : Nat := 82
abbrev maxPathSize : Nat := 64
abbrev noPathEncoding : UInt8 := 0xff
abbrev pathCountMask : UInt8 := 0x3f
abbrev pathWidthShiftMask : UInt8 := 0x03

abbrev errUnsupportedCmd : UInt8 := 1
abbrev errTableFull : UInt8 := 3
abbrev errBadState : UInt8 := 4
abbrev errIllegalArg : UInt8 := 6

abbrev statsTypeCore : UInt8 := 0
abbrev statsTypeRadio : UInt8 := 1
abbrev statsTypePacket : UInt8 := 2

abbrev cmdAppStart : UInt8 := 1
abbrev cmdSendTxtMsg : UInt8 := 2
abbrev cmdSendChannelTxtMsg : UInt8 := 3
abbrev cmdGetContacts : UInt8 := 4
abbrev cmdGetDeviceTime : UInt8 := 5
abbrev cmdSetDeviceTime : UInt8 := 6
abbrev cmdSendSelfAdvert : UInt8 := 7
abbrev cmdSetAdvertName : UInt8 := 8
abbrev cmdAddUpdateContact : UInt8 := 9
abbrev cmdSyncNextMessage : UInt8 := 10
abbrev cmdSetRadioParams : UInt8 := 11
abbrev cmdSetRadioTxPower : UInt8 := 12
abbrev cmdResetPath : UInt8 := 13
abbrev cmdSetAdvertLatlon : UInt8 := 14
abbrev cmdRemoveContact : UInt8 := 15
abbrev cmdShareContact : UInt8 := 16
abbrev cmdExportContact : UInt8 := 17
abbrev cmdImportContact : UInt8 := 18
abbrev cmdReboot : UInt8 := 19
abbrev cmdGetBattAndStorage : UInt8 := 20
abbrev cmdSetTuningParams : UInt8 := 21
abbrev cmdDeviceQuery : UInt8 := 22
abbrev cmdExportPrivateKey : UInt8 := 23
abbrev cmdImportPrivateKey : UInt8 := 24
abbrev cmdSendRawData : UInt8 := 25
abbrev cmdSendLogin : UInt8 := 26
abbrev cmdSendStatusReq : UInt8 := 27
abbrev cmdHasConnection : UInt8 := 28
abbrev cmdLogout : UInt8 := 29
abbrev cmdGetContactByKey : UInt8 := 30
abbrev cmdGetChannel : UInt8 := 31
abbrev cmdSetChannel : UInt8 := 32
abbrev cmdSignStart : UInt8 := 33
abbrev cmdSignData : UInt8 := 34
abbrev cmdSignFinish : UInt8 := 35
abbrev cmdSendTracePath : UInt8 := 36
abbrev cmdSetDevicePin : UInt8 := 37
abbrev cmdSetOtherParams : UInt8 := 38
abbrev cmdSendTelemetryReq : UInt8 := 39
abbrev cmdGetCustomVars : UInt8 := 40
abbrev cmdSetCustomVar : UInt8 := 41
abbrev cmdGetAdvertPath : UInt8 := 42
abbrev cmdGetTuningParams : UInt8 := 43
abbrev cmdSendBinaryReq : UInt8 := 50
abbrev cmdFactoryReset : UInt8 := 51
abbrev cmdSendPathDiscoveryReq : UInt8 := 52
abbrev cmdSetFloodScopeKey : UInt8 := 54
abbrev cmdSendControlData : UInt8 := 55
abbrev cmdGetStats : UInt8 := 56
abbrev cmdSendAnonReq : UInt8 := 57
abbrev cmdSetAutoaddConfig : UInt8 := 58
abbrev cmdGetAutoaddConfig : UInt8 := 59
abbrev cmdGetAllowedRepeatFreq : UInt8 := 60
abbrev cmdSetPathHashMode : UInt8 := 61
abbrev cmdSendChannelData : UInt8 := 62
abbrev cmdSetDefaultFloodScope : UInt8 := 63
abbrev cmdGetDefaultFloodScope : UInt8 := 64
abbrev cmdSendRawPacket : UInt8 := 65
abbrev cmdRunCliCommand : UInt8 := 66

abbrev respOk : UInt8 := 0x00
abbrev respErr : UInt8 := 0x01
abbrev respContactsStart : UInt8 := 0x02
abbrev respContact : UInt8 := 0x03
abbrev respEndOfContacts : UInt8 := 0x04
abbrev respSelfInfo : UInt8 := 0x05
abbrev respSent : UInt8 := 0x06
abbrev respContactMessage : UInt8 := 0x07
abbrev respChannelMessage : UInt8 := 0x08
abbrev respCurrentTime : UInt8 := 0x09
abbrev respNoMoreMessages : UInt8 := 0x0a
abbrev respExportContact : UInt8 := 0x0b
abbrev respBatteryAndStorage : UInt8 := 0x0c
abbrev respDeviceInfo : UInt8 := 0x0d
abbrev respPrivateKey : UInt8 := 0x0e
abbrev respDisabled : UInt8 := 0x0f
abbrev respContactMessageV3 : UInt8 := 0x10
abbrev respChannelMessageV3 : UInt8 := 0x11
abbrev respChannelInfo : UInt8 := 0x12
abbrev respSignStart : UInt8 := 0x13
abbrev respSignature : UInt8 := 0x14
abbrev respCustomVars : UInt8 := 0x15
abbrev respAdvertPath : UInt8 := 0x16
abbrev respTuningParams : UInt8 := 0x17
abbrev respStats : UInt8 := 0x18
abbrev respAutoaddConfig : UInt8 := 0x19
abbrev respAllowedRepeatFreq : UInt8 := 0x1a
abbrev respChannelData : UInt8 := 0x1b
abbrev respDefaultFloodScope : UInt8 := 0x1c
abbrev respCliReply : UInt8 := 0x1d

abbrev pushAdvert : UInt8 := 0x80
abbrev pushPathUpdated : UInt8 := 0x81
abbrev pushSendConfirmed : UInt8 := 0x82
abbrev pushMsgWaiting : UInt8 := 0x83
abbrev pushRawData : UInt8 := 0x84
abbrev pushLoginSuccess : UInt8 := 0x85
abbrev pushLoginFailure : UInt8 := 0x86
abbrev pushStatusResponse : UInt8 := 0x87
abbrev pushLogRxData : UInt8 := 0x88
abbrev pushTraceData : UInt8 := 0x89
abbrev pushNewAdvert : UInt8 := 0x8a
abbrev pushTelemetryResponse : UInt8 := 0x8b
abbrev pushBinaryResponse : UInt8 := 0x8c
abbrev pushPathDiscoveryResponse : UInt8 := 0x8d
abbrev pushControlData : UInt8 := 0x8e
abbrev pushContactDeleted : UInt8 := 0x8f
abbrev pushContactsFull : UInt8 := 0x90

end Protocol
end MeshCoreTCPMux
